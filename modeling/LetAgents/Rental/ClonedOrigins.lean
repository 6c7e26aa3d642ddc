import LetAgents.Rental.Materializer

/-!
# Bare clones and the repositories they are read for

Source: src/api/rental/workspace-materializer.ts:259-326, 468-509 and 619-626. A bare clone
is found by a 32-bit hash of its URL, and its directory alone says that it is there. Where
no two URLs in use share a hash and no failed clone leaves its directory, a call reads the
whole clone of its own URL.
-/
namespace LetAgents.Rental.ClonedOrigins

open Lib.RegExp Materializer

/-- Whatever clone a call of the run reads from was made from its own URL, and is whole. -/
def OwnClones (host : Host) (calls : List Call) : Prop :=
  ∀ before call after, calls = before ++ call :: after →
    ∀ clone, (step host (run host before) call).2 = some clone →
      validateRepoUrl host call.repoUrl = .ok clone.origin ∧ clone.complete = true

/-- The URLs that the calls get accepted. -/
def acceptedUrls (host : Host) (calls : List Call) : List Text :=
  calls.filterMap fun call => (validateRepoUrl host call.repoUrl).toOption

theorem mem_acceptedUrls (member : call ∈ calls)
    (accepted : validateRepoUrl host call.repoUrl = .ok url) : url ∈ acceptedUrls host calls :=
  List.mem_filterMap.mpr ⟨call, member, congrArg _ accepted⟩

/-- Different URLs of the run have different hashes. -/
def HashesApart (host : Host) (calls : List Call) : Prop :=
  ∀ x ∈ acceptedUrls host calls, ∀ y ∈ acceptedUrls host calls,
    hashString x = hashString y → x = y

instance (host : Host) (calls : List Call) : Decidable (HashesApart host calls) :=
  inferInstanceAs (Decidable (∀ x ∈ acceptedUrls host calls, ∀ y ∈ acceptedUrls host calls,
    hashString x = hashString y → x = y))

/-- A clone that the call makes fail leaves no directory. -/
def CleansUp : Call → Prop
  | .materialize _ outcomes => outcomes.clone ≠ .failed true
  | .approve _ _ => True

instance : DecidablePred CleansUp := by
  rintro (⟨input, outcomes⟩ | ⟨input, shown⟩)
  · exact inferInstanceAs (Decidable (outcomes.clone ≠ .failed true))
  · exact inferInstanceAs (Decidable True)

/-! ## One call -/

/-- What became of the cache in a call, and what the call read. -/
inductive CacheStep (host : Host) (world : World) (call : Call) (after : World)
    (reads : Option Clone) : Prop where
  | untouched (same : after.cache = world.cache) (nothing : reads = none)
  | cached (url : Text) (clone : Clone) (accepted : validateRepoUrl host call.repoUrl = .ok url)
      (there : world.cache (hashString url) = some clone) (same : after.cache = world.cache)
      (read : reads = some clone)
  | cloned (url : Text) (accepted : validateRepoUrl host call.repoUrl = .ok url)
      (made : after.cache = Function.update world.cache (hashString url) (some ⟨url, true⟩))
      (read : reads = some ⟨url, true⟩)
  | failed (url : Text) (leaves : ¬CleansUp call) (nothing : reads = none)

theorem bareClone_cases (accepted : validateRepoUrl host input.repoUrl = .ok url)
    (does : bareClone world url outcomes.clone = (after, result)) :
    CacheStep host world (.materialize input outcomes) after result.toOption := by
  unfold bareClone at does
  dsimp only at does
  split at does
  · rename_i cached there
    obtain ⟨rfl, rfl⟩ := Prod.mk.inj does
    exact .cached url cached accepted there rfl rfl
  · split at does
    · obtain ⟨rfl, rfl⟩ := Prod.mk.inj does
      exact .cloned url accepted rfl rfl
    · rename_i leaves outcome
      obtain ⟨rfl, rfl⟩ := Prod.mk.inj does
      cases leaves with
      | false => exact .untouched rfl rfl
      | true => exact .failed url (fun cleans => cleans outcome) rfl

theorem CacheStep.of_cache (stepped : CacheStep host world call middle reads)
    (same : after.cache = middle.cache) : CacheStep host world call after reads := by
  cases stepped with
  | untouched kept nothing => exact .untouched (same.trans kept) nothing
  | cached url clone accepted there kept read =>
    exact .cached url clone accepted there (same.trans kept) read
  | cloned url accepted made read => exact .cloned url accepted (same.trans made) read
  | failed url leaves nothing => exact .failed url leaves nothing

theorem step_cases (host : Host) (world : World) (call : Call) :
    CacheStep host world call (step host world call).1 (step host world call).2 := by
  cases call with
  | materialize input outcomes =>
    simp only [step, materializeWorkspace]
    split
    · exact .untouched rfl rfl
    · split
      · exact .untouched rfl rfl
      · rename_i url accepted
        split
        · rename_i after failure does
          exact bareClone_cases accepted does
        · rename_i after clone does
          have stepped := bareClone_cases accepted does
          split
          · exact stepped
          · exact stepped.of_cache rfl
  | approve input shown =>
    simp only [step, materializeApprovedFile]
    split
    · exact .untouched rfl rfl
    · split
      · exact .untouched rfl rfl
      · split
        · exact .untouched rfl rfl
        · split
          · exact .untouched rfl rfl
          · split
            · exact .untouched rfl rfl
            · split
              · exact .untouched rfl rfl
              · rename_i url accepted
                split
                · exact .untouched rfl rfl
                · rename_i clone there
                  split
                  · exact .cached url clone accepted there rfl rfl
                  · split
                    · exact .cached url clone accepted there rfl rfl
                    · exact .cached url clone accepted there rfl rfl
                    · exact .cached url clone accepted there rfl rfl

/-! ## The cache -/

/-- Every cached clone is whole and stands under the hash of its URL, which a call got
accepted. -/
def Sound (host : Host) (calls : List Call) (world : World) : Prop :=
  ∀ name clone, world.cache name = some clone → clone.complete = true ∧
    name = hashString clone.origin ∧
    ∃ call ∈ calls, validateRepoUrl host call.repoUrl = .ok clone.origin

theorem Sound.step (sound : Sound host calls world) (cleans : CleansUp call) :
    Sound host (calls ++ [call]) (step host world call).1 := by
  have wider : Sound host (calls ++ [call]) world := by
    intro name clone there
    obtain ⟨complete, named, earlier, member, accepted⟩ := sound name clone there
    exact ⟨complete, named, earlier, List.mem_append_left _ member, accepted⟩
  cases step_cases host world call with
  | untouched same nothing | cached url clone accepted found same read =>
    intro name clone there
    rw [same] at there
    exact wider name clone there
  | cloned url accepted made read =>
    intro name clone there
    rw [made] at there
    by_cases here : name = hashString url
    · subst here
      rw [Function.update_self] at there
      obtain rfl := Option.some.inj there
      exact ⟨rfl, rfl, call, List.mem_append_right _ (List.mem_singleton_self _), accepted⟩
    · rw [Function.update_of_ne here] at there
      exact wider name clone there
  | failed url leaves nothing => exact absurd cleans leaves

theorem run_sound (cleans : ∀ call ∈ calls, CleansUp call) : Sound host calls (run host calls) := by
  induction calls using List.reverseRecOn with
  | nil => exact fun _ _ there => absurd there (Option.some_ne_none _).symm
  | append_singleton calls call ih =>
    rw [List.forall_mem_append] at cleans
    rw [run_concat]
    exact (ih cleans.1).step (cleans.2 call (List.mem_singleton_self _))

/-! ## Every run -/

/-- Where the hashes are apart and failed clones clean up, every call reads its own
repository from a whole clone. -/
theorem own_clones (host : Host) (calls : List Call) (apart : HashesApart host calls)
    (cleans : ∀ call ∈ calls, CleansUp call) : OwnClones host calls := by
  rintro before call after rfl clone reads
  rw [List.forall_mem_append, List.forall_mem_cons] at cleans
  have sound : Sound host before (run host before) := run_sound cleans.1
  have here : call ∈ before ++ call :: after :=
    List.mem_append_right _ List.mem_cons_self
  have stepped := step_cases host (run host before) call
  rw [reads] at stepped
  cases stepped with
  | untouched same nothing => exact absurd nothing (Option.some_ne_none _)
  | cached url clone' accepted found same read =>
    obtain rfl := Option.some.inj read
    obtain ⟨complete, named, earlier, member, cloned⟩ := sound _ _ found
    have same : url = clone.origin := apart _ (mem_acceptedUrls here accepted) _
      (mem_acceptedUrls (List.mem_append_left _ member) cloned) named
    exact ⟨same ▸ accepted, complete⟩
  | cloned url accepted made read =>
    obtain rfl := Option.some.inj read
    exact ⟨accepted, rfl⟩
  | failed url leaves nothing => exact absurd nothing (Option.some_ne_none _)

/-- A call that extracts one file. -/
def extracting (id repoUrl : Text) : Call :=
  .materialize ⟨text "s", repoUrl, text "abcdef0", []⟩
    ⟨id, .done, true, true, some (.leaf (text "a") (.file [1]) .nil), true⟩

/-- Two repositories whose paths have hashes of their own, and a file approved from one. -/
def separateCalls : List Call := [extracting (text "m1") (text "/a"),
  extracting (text "m2") (text "/b"),
  .approve ⟨⟨text "abcdef0", some (text "m1")⟩, text " /a", text "b"⟩ (some [2])]

theorem own_clones_separate :
    OwnClones ⟨text "/tmp", true⟩ separateCalls ∧
      (step ⟨text "/tmp", true⟩ (run ⟨text "/tmp", true⟩ (separateCalls.take 2))
        (.approve ⟨⟨text "abcdef0", some (text "m1")⟩, text " /a", text "b"⟩ (some [2]))).2 =
          some ⟨text "/a", true⟩ :=
  ⟨own_clones _ _ (by decide +kernel) (by decide +kernel), by decide +kernel⟩

/-- Two repositories of GitHub share a hash: the second renter gets the first one's files. -/
theorem shared_hash_mixes : ¬ ∀ (host : Host) (calls : List Call), OwnClones host calls := by
  intro claim
  have wrong := claim ⟨text "/tmp", false⟩ [extracting (text "m1") (text "https://github.com/o/Aa"),
    extracting (text "m2") (text "https://github.com/o/BB")]
    [extracting (text "m1") (text "https://github.com/o/Aa")]
    (extracting (text "m2") (text "https://github.com/o/BB")) [] rfl
    ⟨text "https://github.com/o/Aa", true⟩ (by decide +kernel)
  exact absurd wrong.1 (by decide +kernel)

end LetAgents.Rental.ClonedOrigins
