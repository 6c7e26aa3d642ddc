import LetAgents.Rental.ProviderHosts

/-!
# One live installation of a host

A generation only grows, and a call with a lower one changes nothing. The row that was written
last is the live one as long as no call commits its upsert between the statements of another.
-/
namespace LetAgents.Rental.ProviderHosts

open Lib

/-! ## The property -/

/-- The call has made a statement and has not come to its end. -/
def Stage.inFlight : Stage → Bool
  | .requested _ _ | .returned _ | .failed => false
  | _ => true

/-- The call is behind its upsert. -/
def Stage.writing : Stage → Bool
  | .checked _ _ => false
  | stage => stage.inFlight

/-- The upsert that is the call's next statement, and whether offers are synchronised then. -/
def Stage.upserts : Stage → Option (RentalProviderHostInput × Bool)
  | .requested input false => some (input, true)
  | .checked input syncOffers => some (input, syncOffers)
  | _ => none

structure Settled (s : State) : Prop where
  live : ∀ input ∈ s.last, ∃ row, s.db.host input.installationId = some row ∧ row.enabled = input.enabled
  others : ∀ input ∈ s.last, ∀ row ∈ s.db.hosts, row.installation_id ≠ input.installationId → row.enabled = false
  offers : ∀ row ∈ s.db.hosts, row.enabled = false → ∀ listing ∈ s.db.listings,
    listing.provider_host_id = row.id → listing.status ≠ .active

/-- An upsert is made while no call is behind its own, and one that leaves the offers alone
finds the flag that it asks for. -/
def Orderly (s : State) : Input → Prop
  | .call _ _ => True
  | .go k _ _ => ∀ stage ∈ s.calls[k]?, ∀ upsert ∈ stage.upserts,
      (∀ other ∈ s.calls, other.writing = false) ∧
        (upsert.2 = false → ∃ row, s.db.host upsert.1.installationId = some row ∧ row.enabled = upsert.1.enabled)

/-- The row of an installation has reached a generation. -/
def Reached (installationId : String) (generation : Nat) (s : State) : Prop :=
  ∃ row, s.db.host installationId = some row ∧ ∃ stored ∈ row.daemon_generation, generation ≤ stored

/-! ## Generations -/

section

variable {db : Database} {input : RentalProviderHostInput} {id : String} {now : Nat}
  {sameRuntimes : List RentalHostRuntime → List RentalHostRuntime → Bool}

@[simp] theorem disable_id (row : HostRow) (ids : List String) (now : Nat) : (row.disable ids now).id = row.id := by
  unfold HostRow.disable
  split <;> rfl

@[simp] theorem disable_installation (row : HostRow) (ids : List String) (now : Nat) :
    (row.disable ids now).installation_id = row.installation_id := by
  unfold HostRow.disable
  split <;> rfl

@[simp] theorem disable_generation (row : HostRow) (ids : List String) (now : Nat) :
    (row.disable ids now).daemon_generation = row.daemon_generation := by
  unfold HostRow.disable
  split <;> rfl

theorem setWhere_iff (row : HostRow) (input : RentalProviderHostInput) :
    setWhere row input = canAcceptRentalDaemonGeneration row.daemon_generation input.daemonGeneration := by
  unfold setWhere canAcceptRentalDaemonGeneration
  cases input.daemonGeneration <;> cases row.daemon_generation <;> rfl

theorem host_put (here : db.host input.installationId = some row) (now : Nat)
    (installationId : String) :
    Table.find HostRow.installation_id installationId
        (Table.put HostRow.installation_id (row.set input now) db.hosts) =
      if installationId = input.installationId then some (row.set input now) else db.host installationId := by
  have keeps : ∀ old : HostRow,
      (if old.installation_id = input.installationId then row.set input now else old).installation_id =
        old.installation_id := by
    intro old
    split
    next same => exact same.symm
    next => rfl
  refine Eq.trans (Table.find_map keeps installationId db.hosts) ?_
  split
  next same =>
    subst same
    rw [show Table.find HostRow.installation_id input.installationId db.hosts = some row from here,
      Option.map_some, if_pos (Table.mem_of_find here).2]
  next other =>
    cases found : Table.find HostRow.installation_id installationId db.hosts with
    | none => rw [Database.host, found, Option.map_none]
    | some old =>
      have key := (Table.mem_of_find found).2
      rw [Database.host, found, Option.map_some, if_neg (by rw [key]; exact other)]

/-- An upsert inserts a row, writes the one it finds, or leaves it. -/
theorem upsert_cases (db : Database) (input : RentalProviderHostInput) (id : String) (now : Nat) :
    (db.host input.installationId = none ∧ db.upsert input id now =
      ({ db with hosts := db.hosts ++ [newHost input id now] }, some (newHost input id now))) ∨
    ∃ row, db.host input.installationId = some row ∧
      ((canAcceptRentalDaemonGeneration row.daemon_generation input.daemonGeneration = true ∧
          db.upsert input id now =
            ({ db with hosts := Table.put HostRow.installation_id (row.set input now) db.hosts },
              some (row.set input now))) ∨
        (canAcceptRentalDaemonGeneration row.daemon_generation input.daemonGeneration = false ∧
          db.upsert input id now = (db, none))) := by
  unfold Database.upsert
  cases here : db.host input.installationId with
  | none => exact .inl ⟨rfl, rfl⟩
  | some row =>
    right
    refine ⟨row, rfl, ?_⟩
    simp only [setWhere_iff]
    by_cases accepted : canAcceptRentalDaemonGeneration row.daemon_generation input.daemonGeneration = true
    · exact .inl ⟨accepted, by simp [accepted]⟩
    · exact .inr ⟨by simpa using accepted, by simp [accepted]⟩

/-- The generation that a row has reached stays, whatever the next statement is. -/
theorem act_reached (stage : Stage) (here : db.host installationId = some row)
    (reached : ∃ stored ∈ row.daemon_generation, generation ≤ stored) :
    ∃ row', (act sameRuntimes db id now stage).1.host installationId = some row' ∧
      ∃ stored ∈ row'.daemon_generation, generation ≤ stored := by
  have upserted : ∀ input, ∃ row', (db.upsert input id now).1.host installationId = some row' ∧
      ∃ stored ∈ row'.daemon_generation, generation ≤ stored := by
    intro input
    obtain ⟨absent, outcome⟩ | ⟨old, found, ⟨accepted, outcome⟩ | ⟨-, outcome⟩⟩ := upsert_cases db input id now
    · refine ⟨row, ?_, reached⟩
      rw [outcome, Database.host, Table.find_append,
        show Table.find HostRow.installation_id installationId db.hosts = some row from here, Option.some_or]
    · rw [outcome, Database.host, host_put found]
      split
      next same =>
        subst same
        obtain rfl := Option.some.inj (found.symm.trans here)
        obtain ⟨stored, some, le⟩ := reached
        rw [show old.daemon_generation = Option.some stored from some] at accepted
        refine ⟨_, rfl, ?_⟩
        change ∃ later ∈ input.daemonGeneration, generation ≤ later
        cases incoming : input.daemonGeneration with
        | none => simp [canAcceptRentalDaemonGeneration, incoming] at accepted
        | some later =>
          have order : stored ≤ later := by simpa [canAcceptRentalDaemonGeneration, incoming] using accepted
          exact ⟨later, rfl, le.trans order⟩
      next => exact ⟨row, here, reached⟩
    · rw [outcome]
      exact ⟨row, here, reached⟩
  cases stage with
  | requested input heartbeat =>
    cases heartbeat with
    | true => exact ⟨row, here, reached⟩
    | false => exact upserted input
  | checked input syncOffers => exact upserted input
  | superseding input host syncOffers ids =>
    have keeps : ∀ old : HostRow, (old.disable ids host.updated_at).installation_id = old.installation_id :=
      fun old => disable_installation old ids host.updated_at
    have commutes := Table.find_map keeps installationId db.hosts
    rw [show Table.find HostRow.installation_id installationId db.hosts = some row from here] at commutes
    exact ⟨row.disable ids host.updated_at, commutes, by simpa using reached⟩
  | offering input host runtimes byKind =>
    cases runtimes with
    | nil => exact ⟨row, here, reached⟩
    | cons runtime more =>
      have hosts : (offerRuntime db input host runtime more byKind id now).1.hosts = db.hosts := by
        unfold offerRuntime
        split <;> rfl
      refine ⟨row, ?_, reached⟩
      change (offerRuntime db input host runtime more byKind id now).1.host installationId = some row
      rw [Database.host, hosts]
      exact here
  | _ => exact ⟨row, here, reached⟩

/-- A call that goes on makes its next statement, unless the id is one of the tables. -/
theorem go_cases (sameRuntimes : List RentalHostRuntime → List RentalHostRuntime → Bool) (s : State) (k : Nat)
    (id : String) (now : Nat) :
    step sameRuntimes s (.go k id now) = s ∨ ∃ stage, s.calls[k]? = some stage ∧ id ∉ s.db.ids ∧
      step sameRuntimes s (.go k id now) = ⟨(act sameRuntimes s.db id now stage).1,
        s.calls.set k (act sameRuntimes s.db id now stage).2,
        (act sameRuntimes s.db id now stage).2.commits.or s.last⟩ := by
  unfold step
  dsimp only
  cases here : s.calls[k]? with
  | none => exact .inl rfl
  | some stage =>
    by_cases taken : id ∈ s.db.ids
    · exact .inl (by simp [taken])
    · exact .inr ⟨stage, rfl, taken, by simp [taken]⟩

theorem step_reached (event : Input) (reached : Reached installationId generation s) :
    Reached installationId generation (step sameRuntimes s event) := by
  obtain ⟨row, here, stored⟩ := reached
  cases event with
  | call input heartbeat => exact ⟨row, here, stored⟩
  | go k id now =>
    obtain same | ⟨stage, -, -, next⟩ := go_cases sameRuntimes s k id now
    · exact ⟨row, by rw [same]; exact here, stored⟩
    · rw [next]
      exact act_reached stage here stored

/-! ## Calls with a lower generation -/

/-- The call has failed, or its upsert will meet a row with a later generation. -/
def Stale (k : Nat) (s : State) : Prop :=
  s.calls[k]? = some .failed ∨ ∃ input generation, Reached input.installationId generation s ∧
    input.daemonGeneration.all (· < generation) = true ∧
    ((∃ heartbeat, s.calls[k]? = some (.requested input heartbeat)) ∨
      ∃ syncOffers, s.calls[k]? = some (.checked input syncOffers))

theorem reached_refused (reached : Reached input.installationId generation s)
    (lower : input.daemonGeneration.all (· < generation) = true) :
    ∃ row, s.db.host input.installationId = some row ∧
      canAcceptRentalDaemonGeneration row.daemon_generation input.daemonGeneration = false := by
  obtain ⟨row, here, stored, some, le⟩ := reached
  refine ⟨row, here, ?_⟩
  rw [show row.daemon_generation = Option.some stored from some]
  cases incoming : input.daemonGeneration with
  | none => rfl
  | some later =>
    have order : later < generation := by simpa [incoming] using lower
    simp [canAcceptRentalDaemonGeneration]
    omega

theorem refused_upsert (here : db.host input.installationId = some row)
    (refused : canAcceptRentalDaemonGeneration row.daemon_generation input.daemonGeneration = false)
    (syncOffers : Bool) : upsertRentalProviderHost db input syncOffers id now = (db, .failed) := by
  obtain ⟨absent, -⟩ | ⟨old, found, ⟨accepted, -⟩ | ⟨-, outcome⟩⟩ := upsert_cases db input id now
  · rw [here] at absent
    cases absent
  · obtain rfl := Option.some.inj (found.symm.trans here)
    rw [refused] at accepted
    cases accepted
  · rw [upsertRentalProviderHost, outcome]
    rfl

/-- A stale call makes no change and fails. -/
theorem stale_act (sameRuntimes : List RentalHostRuntime → List RentalHostRuntime → Bool)
    (stale : Stale k s) (id : String) (now : Nat) :
    ∃ stage, s.calls[k]? = some stage ∧ act sameRuntimes s.db id now stage = (s.db, .failed) := by
  obtain failed | ⟨input, generation, reached, lower, ⟨heartbeat, here⟩ | ⟨syncOffers, here⟩⟩ := stale
  · exact ⟨_, failed, rfl⟩
  all_goals obtain ⟨row, found, refused⟩ := reached_refused reached lower
  · refine ⟨_, here, ?_⟩
    cases heartbeat with
    | false => exact refused_upsert found refused true
    | true =>
      change (s.db, ProviderHosts.heartbeat sameRuntimes s.db input) = _
      rw [ProviderHosts.heartbeat, found]
      simp [refused]
  · exact ⟨_, here, refused_upsert found refused syncOffers⟩

theorem stale_step (stale : Stale k s) (event : Input) : Stale k (step sameRuntimes s event) := by
  cases event with
  | call input heartbeat =>
    have kept : ∀ {stage : Stage}, s.calls[k]? = some stage →
        (s.calls ++ [.requested input heartbeat])[k]? = some stage := by
      intro stage here
      rw [List.getElem?_append_left (List.getElem?_eq_some_iff.mp here).1, here]
    obtain failed | ⟨own, generation, reached, lower, ⟨beat, here⟩ | ⟨syncOffers, here⟩⟩ := stale
    · exact .inl (kept failed)
    · exact .inr ⟨own, generation, reached, lower, .inl ⟨beat, kept here⟩⟩
    · exact .inr ⟨own, generation, reached, lower, .inr ⟨syncOffers, kept here⟩⟩
  | go j id now =>
    obtain rests | ⟨stage, own, -, next⟩ := go_cases sameRuntimes s j id now
    · rw [rests]
      exact stale
    by_cases same : j = k
    · subst same
      obtain ⟨stage', here, outcome⟩ := stale_act sameRuntimes stale id now
      obtain rfl := Option.some.inj (own.symm.trans here)
      left
      rw [next, outcome]
      exact Machine.set_self here _
    · have others : (step sameRuntimes s (.go j id now)).calls[k]? = s.calls[k]? := by
        rw [next]
        exact List.getElem?_set_ne same
      obtain failed | ⟨own, generation, reached, lower, ⟨beat, here⟩ | ⟨syncOffers, here⟩⟩ := stale
      · exact .inl (others.trans failed)
      · exact .inr ⟨own, generation, step_reached _ reached, lower, .inl ⟨beat, others.trans here⟩⟩
      · exact .inr ⟨own, generation, step_reached _ reached, lower, .inr ⟨syncOffers, others.trans here⟩⟩

/-! ## Calls one behind the other -/

structure Tables (db : Database) : Prop where
  ids : Table.Keyed HostRow.id db.hosts
  installations : Table.Keyed HostRow.installation_id db.hosts
  listings : Table.Keyed Listing.id db.listings
  kinds : Table.Keyed (fun listing => (listing.provider_host_id, listing.ide_kind)) db.listings
  owned : ∀ listing ∈ db.listings, ∃ row ∈ db.hosts, row.id = listing.provider_host_id

/-- An active listing is one of an enabled row, or of a row that is spared. -/
def Quieted (db : Database) (spared : String → Prop) : Prop :=
  ∀ listing ∈ db.listings, listing.status = .active → spared listing.provider_host_id ∨
    ∃ row ∈ db.hosts, row.id = listing.provider_host_id ∧ row.enabled = true

/-- The row that a call wrote is the one that was written last. -/
structure Current (hosts : List HostRow) (last : Option RentalProviderHostInput) (input : RentalProviderHostInput)
    (host : HostRow) : Prop where
  last : last = some input
  member : host ∈ hosts
  installation : host.installation_id = input.installationId
  enabled : host.enabled = input.enabled

def OthersDisabled (hosts : List HostRow) (input : RentalProviderHostInput) : Prop :=
  ∀ row ∈ hosts, row.installation_id ≠ input.installationId → row.enabled = false

/-- The own listings that a sync has yet to write, and those it has. -/
def Offered (db : Database) (host : HostRow) (kinds : List String) (left : Listing → Prop) : Prop :=
  ∀ listing ∈ db.listings, listing.provider_host_id = host.id →
    left listing ∨ (listing.status = .active → host.enabled = true) ∧ listing.ide_kind ∉ kinds

/-- What holds while a call is behind its upsert. -/
def Stage.Holds (db : Database) (last : Option RentalProviderHostInput) : Stage → Prop
  | .upserted input host syncOffers => Current db.hosts last input host ∧
      Quieted db fun id => id = host.id ∧ syncOffers = true
  | .superseding input host syncOffers ids => Current db.hosts last input host ∧ ids = db.superseded input ∧
      Quieted db fun id => id = host.id ∧ syncOffers = true
  | .pausing input host syncOffers ids => Current db.hosts last input host ∧ ids = db.superseded input ∧
      OthersDisabled db.hosts input ∧ Quieted db fun id => id ∈ ids ∨ id = host.id ∧ syncOffers = true
  | .syncing input host => Current db.hosts last input host ∧ OthersDisabled db.hosts input ∧ Quieted db (· = host.id)
  | .offering input host runtimes byKind => Current db.hosts last input host ∧ OthersDisabled db.hosts input ∧
      Quieted db (· = host.id) ∧ Table.Keyed RentalHostRuntime.kind runtimes ∧
      (∀ listing ∈ byKind, listing ∈ db.listings ∧ listing.provider_host_id = host.id) ∧
      Offered db host (runtimes.map RentalHostRuntime.kind) (· ∈ byKind)
  | .staling input host staleIds => Current db.hosts last input host ∧ OthersDisabled db.hosts input ∧
      Quieted db (· = host.id) ∧ Offered db host [] (·.id ∈ staleIds)
  | _ => True

/-- What holds while no call is behind its upsert. -/
structure Proper (db : Database) (last : Option RentalProviderHostInput) : Prop where
  live : ∀ input, last = some input → (∃ host, Current db.hosts last input host) ∧ OthersDisabled db.hosts input
  quieted : Quieted db fun _ => False

/-- What a call leaves where its stage is the next one. -/
def Leaves (db : Database) (last : Option RentalProviderHostInput) (stage : Stage) : Prop :=
  (stage.writing = true → stage.Holds db last) ∧ (stage.writing = false → Proper db last)

variable {last : Option RentalProviderHostInput} {host : HostRow}

section

variable (current : Current db.hosts last input host)
include current

theorem leaves_returned (others : OthersDisabled db.hosts input)
    (quieted : Quieted db fun _ => False) : Leaves db last (.returned host) := by
  refine ⟨fun writing => absurd writing Bool.false_ne_true, fun _ => ⟨fun input' same => ?_, quieted⟩⟩
  obtain rfl := Option.some.inj (current.last.symm.trans same)
  exact ⟨⟨host, current⟩, others⟩

/-- An own listing is spared where it is active only with the row enabled. -/
theorem quieted_own (quieted : Quieted db (· = host.id))
    (own : ∀ listing ∈ db.listings, listing.provider_host_id = host.id → listing.status = .active → host.enabled = true) :
    Quieted db fun _ => False := by
  intro listing member active
  obtain mine | enabled := quieted listing member active
  · exact .inr ⟨host, current.member, mine.symm, own listing member mine active⟩
  · exact .inr enabled

theorem leaves_nextOffer (others : OthersDisabled db.hosts input)
    (quieted : Quieted db (· = host.id)) (distinct : Table.Keyed RentalHostRuntime.kind runtimes)
    (own : ∀ listing ∈ byKind, listing ∈ db.listings ∧ listing.provider_host_id = host.id)
    (offered : Offered db host (runtimes.map RentalHostRuntime.kind) (· ∈ byKind)) :
    Leaves db last (nextOffer input host byKind runtimes) := by
  cases runtimes with
  | cons runtime more =>
    exact ⟨fun _ => ⟨current, others, quieted, distinct, own, offered⟩,
      fun done => absurd done.symm Bool.false_ne_true⟩
  | nil =>
    by_cases none : byKind = []
    · rw [nextOffer, if_pos none]
      apply leaves_returned current others
      refine quieted_own current quieted fun listing member mine => ?_
      obtain left | ⟨settled, -⟩ := offered listing member mine
      · rw [none] at left
        cases left
      · exact settled
    · rw [nextOffer, if_neg none]
      refine ⟨fun _ => ⟨current, others, quieted, fun listing member mine => ?_⟩,
        fun done => absurd done.symm Bool.false_ne_true⟩
      exact (offered listing member mine).imp (List.mem_map_of_mem (f := Listing.id)) fun settled => settled

theorem leaves_afterSuperseded (others : OthersDisabled db.hosts input)
    (quieted : Quieted db fun id => id = host.id ∧ syncOffers = true) :
    Leaves db last (afterSuperseded input host syncOffers) := by
  cases syncOffers with
  | true =>
    refine ⟨fun _ => ⟨current, others, ?_⟩, fun done => absurd done.symm Bool.false_ne_true⟩
    exact fun listing member active => (quieted listing member active).imp And.left fun enabled => enabled
  | false =>
    apply leaves_returned current others
    intro listing member active
    exact (quieted listing member active).imp (fun spared => absurd spared.2 Bool.false_ne_true) fun enabled => enabled

end

theorem mem_superseded (member : row ∈ db.hosts) (tables : Tables db) :
    row.id ∈ db.superseded input ↔ row.installation_id ≠ input.installationId := by
  constructor
  · intro listed
    obtain ⟨other, inside, same⟩ := List.mem_map.mp listed
    obtain ⟨inside, apart⟩ := List.mem_filter.mp inside
    obtain rfl := tables.ids.eq inside member same
    simpa using apart
  · intro apart
    exact List.mem_map_of_mem (f := HostRow.id) (List.mem_filter.mpr ⟨member, by simpa using apart⟩)

/-! ## The statements behind an upsert -/

theorem existingByKind_keyed (distinct : Table.Keyed Listing.ide_kind existing) :
    existingByKind existing = existing := by
  induction existing with
  | nil => rfl
  | cons listing more ih =>
    obtain ⟨fresh, rest⟩ := List.nodup_cons.mp distinct
    have alone : (more.any fun other => decide (other.ide_kind = listing.ide_kind)) = false := by
      apply List.any_eq_false.mpr
      intro other member same
      exact fresh (List.mem_map.mpr ⟨other, member, by simpa using same⟩)
    rw [existingByKind, if_neg (by simp [alone]), ih rest]

/-- The flag of its row decides on a listing that is offered. -/
theorem offeredStatus_active (host : HostRow) : offeredStatus host = .active → host.enabled = true := by
  unfold offeredStatus
  split
  next enabled => exact fun _ => enabled
  next => exact nofun

/-- Tables whose rows are changed in other columns than their keys. -/
theorem Tables.change (tables : Tables db)
    (host : ∀ row ∈ db.hosts, (f row).id = row.id ∧ (f row).installation_id = row.installation_id)
    (listing : ∀ row, (g row).id = row.id ∧ (g row).provider_host_id = row.provider_host_id ∧
      (g row).ide_kind = row.ide_kind) : Tables ⟨db.hosts.map f, db.listings.map g⟩ where
  ids := tables.ids.map fun row member => (host row member).1
  installations := tables.installations.map fun row member => (host row member).2
  listings := tables.listings.map fun row _ => (listing row).1
  kinds := tables.kinds.map fun row _ => by rw [(listing row).2.1, (listing row).2.2]
  owned row member := by
    obtain ⟨old, inside, rfl⟩ := List.mem_map.mp member
    obtain ⟨owner, ownerInside, same⟩ := tables.owned old inside
    refine ⟨f owner, List.mem_map_of_mem ownerInside, ?_⟩
    rw [(host owner ownerInside).1, same, (listing old).2.1]

theorem Tables.pause (tables : Tables db) (chosen : Listing → Bool) (now : Nat) : Tables (db.pause chosen now) := by
  have whole := tables.change (f := fun row => row)
    (g := fun listing => if chosen listing then listing.pause now else listing) (fun row _ => ⟨rfl, rfl⟩)
    (fun row => by split <;> exact ⟨rfl, rfl, rfl⟩)
  rw [List.map_id'] at whole
  exact whole

theorem superseding_step (tables : Tables db)
    (holds : (Stage.superseding input host syncOffers ids).Holds db last) (now : Nat) :
    Tables (db.disable ids now) ∧
      (Stage.pausing input host syncOffers ids).Holds (db.disable ids now) last := by
  obtain ⟨current, rfl, quieted⟩ := holds
  have rows := tables.change (f := fun row => row.disable (db.superseded input) now) (g := fun listing => listing)
    (fun row _ => ⟨disable_id .., disable_installation ..⟩) (fun row => ⟨rfl, rfl, rfl⟩)
  rw [List.map_id'] at rows
  have kept : host.disable (db.superseded input) now = host := by
    unfold HostRow.disable
    rw [if_neg]
    intro listed
    exact (mem_superseded current.member tables).mp listed current.installation
  have same : db.superseded input = (db.disable (db.superseded input) now).superseded input := by
    unfold Database.superseded Database.disable
    rw [List.filter_map, List.map_map]
    simp [Function.comp_def]
  refine ⟨rows, ⟨current.last, ?_, current.installation, current.enabled⟩, same, ?_, ?_⟩
  · rw [← kept]
    exact List.mem_map_of_mem current.member
  · intro row member apart
    obtain ⟨old, inside, rfl⟩ := List.mem_map.mp member
    rw [disable_installation] at apart
    simp only [HostRow.disable, if_pos ((mem_superseded inside tables).mpr apart)]
  · intro listing member active
    obtain spared | ⟨row, inside, own, enabled⟩ := quieted listing member active
    · exact .inl (.inr spared)
    · by_cases listed : row.id ∈ db.superseded input
      · exact .inl (.inl (own ▸ listed))
      · refine .inr ⟨row.disable (db.superseded input) now, List.mem_map_of_mem inside, ?_, ?_⟩
        · rw [disable_id, own]
        · rw [HostRow.disable, if_neg listed, enabled]

/-- A pause spares what it chooses no longer. -/
theorem quieted_pause (quieted : Quieted db spared)
    (covers : ∀ listing ∈ db.listings, spared listing.provider_host_id → chosen listing = true ∨
      rest listing.provider_host_id) (now : Nat) : Quieted (db.pause chosen now) rest := by
  intro listing member active
  obtain ⟨old, inside, rfl⟩ := List.mem_map.mp member
  by_cases picked : chosen old = true
  · rw [if_pos picked] at active
    cases active
  · rw [if_neg picked] at active ⊢
    obtain mine | enabled := quieted old inside active
    · exact .inl ((covers old inside mine).resolve_left picked)
    · exact .inr enabled

theorem pausing_step (tables : Tables db)
    (holds : (Stage.pausing input host syncOffers ids).Holds db last) (now : Nat) :
    Tables (db.pause (·.provider_host_id ∈ ids) now) ∧
      Leaves (db.pause (·.provider_host_id ∈ ids) now) last (afterSuperseded input host syncOffers) := by
  obtain ⟨current, -, others, quieted⟩ := holds
  have current' : Current (db.pause (·.provider_host_id ∈ ids) now).hosts last input host :=
    ⟨current.last, current.member, current.installation, current.enabled⟩
  refine ⟨tables.pause _ _, leaves_afterSuperseded current' others (quieted_pause quieted ?_ _)⟩
  intro listing _ mine
  exact mine.imp (fun listed => by simpa using listed) fun spared => spared

theorem syncing_step (tables : Tables db) (holds : (Stage.syncing input host).Holds db last) :
    Leaves db last (nextOffer input host (existingByKind (db.offersOf host))
      (input.runtimes.filter (·.authenticated))) := by
  obtain ⟨current, others, quieted⟩ := holds
  have own : ∀ listing ∈ db.offersOf host, listing ∈ db.listings ∧ listing.provider_host_id = host.id := by
    intro listing member
    obtain ⟨inside, mine⟩ := List.mem_filter.mp member
    exact ⟨inside, by simpa using mine⟩
  have distinct : Table.Keyed Listing.ide_kind (db.offersOf host) := by
    have pairs := tables.kinds.sublist
      (List.filter_sublist (p := fun listing => decide (listing.provider_host_id = host.id)))
    refine List.Nodup.of_map (fun kind => (host.id, kind)) ?_
    have same : ((db.offersOf host).map Listing.ide_kind).map (fun kind => (host.id, kind)) =
        (db.offersOf host).map fun listing => (listing.provider_host_id, listing.ide_kind) := by
      rw [List.map_map]
      exact List.map_congr_left fun listing member => by rw [(own listing member).2]; rfl
    rw [same]
    exact pairs
  rw [existingByKind_keyed distinct]
  refine leaves_nextOffer current others quieted (input.byKind.sublist List.filter_sublist) own ?_
  intro listing member mine
  exact .inl (List.mem_filter.mpr ⟨member, by simpa using mine⟩)

theorem offering_step (tables : Tables db)
    (holds : (Stage.offering input host (runtime :: more) byKind).Holds db last)
    (fresh : id ∉ db.ids) (now : Nat) :
    Tables (offerRuntime db input host runtime more byKind id now).1 ∧
      Leaves (offerRuntime db input host runtime more byKind id now).1 last
        (offerRuntime db input host runtime more byKind id now).2 := by
  obtain ⟨current, others, quieted, distinct, own, offered⟩ := holds
  obtain ⟨newKind, distinctMore⟩ := List.nodup_cons.mp distinct
  unfold offerRuntime
  cases found : byKind.find? (·.ide_kind = runtime.kind) with
  | some chosen =>
    have kind : chosen.ide_kind = runtime.kind := by simpa using List.find?_some found
    obtain ⟨inside, mine⟩ := own chosen (List.mem_of_find?_eq_some found)
    have rows := tables.change (f := fun row => row)
      (g := fun listing => if listing.id = chosen.id then listing.offer host runtime now else listing)
      (fun row _ => ⟨rfl, rfl⟩) (fun row => by split <;> exact ⟨rfl, rfl, rfl⟩)
    rw [List.map_id'] at rows
    refine ⟨rows, leaves_nextOffer ?_ ?_ ?_ distinctMore ?_ ?_⟩
    · exact current
    · exact others
    · intro listing member active
      obtain ⟨old, within, rfl⟩ := List.mem_map.mp member
      by_cases same : old.id = chosen.id
      · obtain rfl := tables.listings.eq within inside same
        left
        rw [if_pos same]
        exact mine
      · rw [if_neg same] at active ⊢
        exact quieted old within active
    · intro listing member
      obtain ⟨left, apart⟩ := List.mem_filter.mp member
      obtain ⟨within, same⟩ := own listing left
      refine ⟨List.mem_map.mpr ⟨listing, within, if_neg fun equal => ?_⟩, same⟩
      obtain rfl := tables.listings.eq within inside equal
      simp [kind] at apart
    · intro listing member same
      obtain ⟨old, within, rfl⟩ := List.mem_map.mp member
      by_cases equal : old.id = chosen.id
      · obtain rfl := tables.listings.eq within inside equal
        right
        rw [if_pos equal]
        exact ⟨offeredStatus_active host, by
          change old.ide_kind ∉ _
          rw [kind]
          exact newKind⟩
      · rw [if_neg equal] at same ⊢
        obtain left | ⟨settled, apart⟩ := offered old within same
        · by_cases other : old.ide_kind = runtime.kind
          · -- two own listings of a kind are one
            exfalso
            apply equal
            have pair : (old.provider_host_id, old.ide_kind) = (chosen.provider_host_id, chosen.ide_kind) := by
              rw [same, mine, other, kind]
            rw [tables.kinds.eq within inside pair]
          · exact .inl (List.mem_filter.mpr ⟨left, by simpa using other⟩)
        · exact .inr ⟨settled, fun listed => apart (.tail _ listed)⟩
  | none =>
    have absent : ∀ listing ∈ db.listings, listing.provider_host_id = host.id → listing.ide_kind ≠ runtime.kind := by
      intro listing member same equal
      obtain left | ⟨-, apart⟩ := offered listing member same
      · exact absurd (decide_eq_true equal) (by simpa using List.find?_eq_none.mp found listing left)
      · exact apart (by rw [equal]; exact .head _)
    have newId : ∀ listing ∈ db.listings, listing.id ≠ id := by
      rintro listing member rfl
      exact fresh (List.mem_append_right _ (List.mem_map_of_mem (f := Listing.id) member))
    refine ⟨⟨tables.ids, tables.installations, tables.listings.append (List.nodup_singleton _) ?_,
      tables.kinds.append (List.nodup_singleton _) ?_, ?_⟩, leaves_nextOffer ?_ ?_ ?_ distinctMore ?_ ?_⟩
    · intro listing member other single
      obtain rfl := List.mem_singleton.mp single
      exact newId listing member
    · intro listing member other single same
      obtain rfl := List.mem_singleton.mp single
      obtain ⟨mine, equal⟩ := Prod.mk.inj same
      exact absent listing member mine equal
    · intro listing member
      obtain old | single := List.mem_append.mp member
      · exact tables.owned listing old
      · obtain rfl := List.mem_singleton.mp single
        exact ⟨host, current.member, rfl⟩
    · exact current
    · exact others
    · intro listing member active
      obtain old | single := List.mem_append.mp member
      · exact quieted listing old active
      · obtain rfl := List.mem_singleton.mp single
        exact .inl rfl
    · exact fun listing member => ⟨List.mem_append_left _ (own listing member).1, (own listing member).2⟩
    · intro listing member same
      obtain old | single := List.mem_append.mp member
      · exact (offered listing old same).imp_right fun settled =>
          ⟨settled.1, fun listed => settled.2 (.tail _ listed)⟩
      · obtain rfl := List.mem_singleton.mp single
        exact .inr ⟨offeredStatus_active host, newKind⟩

theorem staling_step (tables : Tables db)
    (holds : (Stage.staling input host staleIds).Holds db last) (now : Nat) :
    Tables (db.pause (·.id ∈ staleIds) now) ∧
      Leaves (db.pause (·.id ∈ staleIds) now) last (.returned host) := by
  obtain ⟨current, others, quieted, offered⟩ := holds
  have current' : Current (db.pause (·.id ∈ staleIds) now).hosts last input host :=
    ⟨current.last, current.member, current.installation, current.enabled⟩
  refine ⟨tables.pause _ _, leaves_returned current' others ?_⟩
  apply quieted_own current' (quieted_pause quieted (fun listing _ mine => .inr mine) now)
  intro listing member mine active
  obtain ⟨old, inside, rfl⟩ := List.mem_map.mp member
  by_cases picked : old.id ∈ staleIds
  · rw [if_pos (by simpa using picked)] at active
    cases active
  · rw [if_neg (by simpa using picked)] at active mine
    exact ((offered old inside mine).resolve_left picked).1 active

/-- A call behind its upsert keeps what it rests on, and leaves it to the next stage. -/
theorem writing_step (sameRuntimes : List RentalHostRuntime → List RentalHostRuntime → Bool)
    (tables : Tables db) (writing : stage.writing = true) (holds : stage.Holds db last)
    (fresh : id ∉ db.ids) (now : Nat) :
    Tables (act sameRuntimes db id now stage).1 ∧
      Leaves (act sameRuntimes db id now stage).1 last (act sameRuntimes db id now stage).2 := by
  cases stage with
  | upserted input host syncOffers =>
    obtain ⟨current, quieted⟩ := holds
    refine ⟨tables, ?_⟩
    change Leaves db last (if db.superseded input = [] then _ else _)
    split
    next none =>
      refine leaves_afterSuperseded current (fun row member apart => ?_) quieted
      have listed := (mem_superseded member tables).mpr apart
      rw [none] at listed
      cases listed
    next => exact ⟨fun _ => ⟨current, rfl, quieted⟩, fun done => absurd done.symm Bool.false_ne_true⟩
  | superseding input host syncOffers ids =>
    obtain ⟨rows, next⟩ := superseding_step tables holds host.updated_at
    exact ⟨rows, fun _ => next, fun done => absurd done.symm Bool.false_ne_true⟩
  | pausing input host syncOffers ids => exact pausing_step tables holds host.updated_at
  | syncing input host => exact ⟨tables, syncing_step tables holds⟩
  | offering input host runtimes byKind =>
    cases runtimes with
    | nil =>
      obtain ⟨current, others, quieted, distinct, own, offered⟩ := holds
      exact ⟨tables, leaves_nextOffer current others quieted distinct own offered⟩
    | cons runtime more => exact offering_step tables holds fresh now
  | staling input host staleIds => exact staling_step tables holds now
  | _ => exact absurd writing Bool.false_ne_true

/-- The row of an upsert that finds none. -/
theorem inserted_step (tables : Tables db) (proper : Proper db last) (absent : db.host input.installationId = none)
    (syncOffers : Bool) (fresh : id ∉ db.ids) (now : Nat) :
    Tables { db with hosts := db.hosts ++ [newHost input id now] } ∧
      (Stage.upserted input (newHost input id now) syncOffers).Holds
        { db with hosts := db.hosts ++ [newHost input id now] } (some input) := by
  refine ⟨⟨tables.ids.append (List.nodup_singleton _) ?_, tables.installations.append (List.nodup_singleton _) ?_,
    tables.listings, tables.kinds, ?_⟩, ⟨rfl, ?_, rfl, rfl⟩, ?_⟩
  · intro row member other single same
    obtain rfl := List.mem_singleton.mp single
    exact fresh (List.mem_append_left _ (List.mem_map.mpr ⟨row, member, same⟩))
  · intro row member other single same
    obtain rfl := List.mem_singleton.mp single
    have apart := List.find?_eq_none.mp absent row member
    exact apart (decide_eq_true same)
  · intro listing member
    obtain ⟨owner, inside, same⟩ := tables.owned listing member
    exact ⟨owner, List.mem_append_left _ inside, same⟩
  · exact List.mem_append_right _ (List.mem_singleton_self _)
  · intro listing member active
    obtain ⟨owner, inside, same, enabled⟩ := (proper.quieted listing member active).resolve_left not_false
    exact .inr ⟨owner, List.mem_append_left _ inside, same, enabled⟩

/-- The row of an upsert that finds one. -/
theorem written_step (tables : Tables db) (proper : Proper db last)
    (found : db.host input.installationId = some row)
    (finds : syncOffers = false → row.enabled = input.enabled) (now : Nat) :
    Tables { db with hosts := Table.put HostRow.installation_id (row.set input now) db.hosts } ∧
      (Stage.upserted input (row.set input now) syncOffers).Holds
        { db with hosts := Table.put HostRow.installation_id (row.set input now) db.hosts } (some input) := by
  obtain ⟨member, key⟩ := Table.mem_of_find found
  have rows := tables.change
    (f := fun old => if old.installation_id = (row.set input now).installation_id then row.set input now else old)
    (g := fun listing => listing) (fun old inside => by
      split
      next same =>
        obtain rfl := tables.installations.eq inside member (same.trans key.symm)
        exact ⟨rfl, same.symm⟩
      next => exact ⟨rfl, rfl⟩) (fun listing => ⟨rfl, rfl, rfl⟩)
  rw [List.map_id'] at rows
  refine ⟨rows, ⟨rfl, Table.put_mem member key, rfl, rfl⟩, ?_⟩
  intro listing inside active
  obtain ⟨owner, owned, same, enabled⟩ := (proper.quieted listing inside active).resolve_left not_false
  by_cases own : owner.installation_id = input.installationId
  · obtain rfl := tables.installations.eq owned member (own.trans key.symm)
    cases asked : input.enabled with
    | true => exact .inr ⟨owner.set input now, Table.put_mem member key, same, asked⟩
    | false =>
      -- the offers of a row that is switched off are synchronised
      left
      refine ⟨same.symm, ?_⟩
      by_contra quiet
      have flag := finds (by simpa using quiet)
      rw [enabled, asked] at flag
      cases flag
  · exact .inr ⟨owner, Table.mem_put_of_ne owned own, same, enabled⟩

/-- An upsert that is not refused writes the row that the call goes on with. -/
theorem upsert_step (tables : Tables db) (proper : Proper db last)
    (finds : syncOffers = false → ∃ row, db.host input.installationId = some row ∧ row.enabled = input.enabled)
    (fresh : id ∉ db.ids) (now : Nat) :
    upsertRentalProviderHost db input syncOffers id now = (db, .failed) ∨
    ∃ db' host, upsertRentalProviderHost db input syncOffers id now = (db', .upserted input host syncOffers) ∧
      Tables db' ∧ (Stage.upserted input host syncOffers).Holds db' (some input) := by
  obtain ⟨absent, outcome⟩ | ⟨row, found, ⟨-, outcome⟩ | ⟨-, outcome⟩⟩ := upsert_cases db input id now
  · right
    obtain ⟨rows, holds⟩ := inserted_step tables proper absent syncOffers fresh now
    exact ⟨_, _, by rw [upsertRentalProviderHost, outcome]; rfl, rows, holds⟩
  · right
    have flag : syncOffers = false → row.enabled = input.enabled := by
      intro silent
      obtain ⟨row', found', flag⟩ := finds silent
      rw [Option.some.inj (found.symm.trans found')]
      exact flag
    obtain ⟨rows, holds⟩ := written_step tables proper found flag now
    exact ⟨_, _, by rw [upsertRentalProviderHost, outcome]; rfl, rows, holds⟩
  · left
    rw [upsertRentalProviderHost, outcome]
    rfl

/-! ## Runs -/

structure Sound (s : State) : Prop where
  tables : Tables s.db
  single : ∀ (j k : Nat) (stage stage' : Stage), s.calls[j]? = some stage → s.calls[k]? = some stage' →
    stage.writing = true → stage'.writing = true → j = k
  holds : ∀ stage ∈ s.calls, stage.writing = true → stage.Holds s.db s.last
  proper : (∀ stage ∈ s.calls, stage.writing = false) → Proper s.db s.last

/-- One call goes on while no other is behind its upsert. -/
theorem sound_set {calls : List Stage} (here : calls[k]? = some before) (tables : Tables db)
    (leaves : Leaves db last next)
    (alone : ∀ (j : Nat) (stage : Stage), j ≠ k → calls[j]? = some stage → stage.writing = false) :
    Sound ⟨db, calls.set k next, last⟩ where
  tables := tables
  single j j' stage stage' place place' writing writing' := by
    obtain ⟨rfl, -⟩ | ⟨other, old⟩ := Machine.set_cases place
    · obtain ⟨rfl, -⟩ | ⟨other', old'⟩ := Machine.set_cases place'
      · rfl
      · exact absurd writing' (by simp [alone j' stage' other' old'])
    · exact absurd writing (by simp [alone j stage other old])
  holds stage member writing := by
    obtain ⟨j, place⟩ := List.getElem?_of_mem member
    obtain ⟨-, rfl⟩ | ⟨other, old⟩ := Machine.set_cases place
    · exact leaves.1 writing
    · exact absurd writing (by simp [alone j stage other old])
  proper quiet := leaves.2 (quiet next (List.mem_of_getElem? (Machine.set_self here next)))

theorem writing_commits (writing : stage.writing = true) :
    (act sameRuntimes db id now stage).2.commits = none := by
  have after : ∀ input host syncOffers, (afterSuperseded input host syncOffers).commits = none := by
    intro input host syncOffers
    cases syncOffers <;> rfl
  have next : ∀ input host byKind runtimes, (nextOffer input host byKind runtimes).commits = none := by
    intro input host byKind runtimes
    cases runtimes with
    | cons => rfl
    | nil =>
      by_cases none : byKind = []
      · rw [nextOffer, if_pos none]
        rfl
      · rw [nextOffer, if_neg none]
        rfl
  cases stage with
  | upserted input host syncOffers =>
    change Stage.commits (if _ then _ else _) = none
    split
    · exact after ..
    · rfl
  | pausing input host syncOffers ids => exact after ..
  | syncing input host => exact next ..
  | offering input host runtimes byKind =>
    cases runtimes with
    | nil =>
      change (nextOffer input host byKind []).commits = none
      exact next ..
    | cons runtime more =>
      change (offerRuntime db input host runtime more byKind id now).2.commits = none
      unfold offerRuntime
      split <;> exact next ..
  | requested input heartbeat | checked input syncOffers => exact absurd writing Bool.false_ne_true
  | _ => rfl

theorem heartbeat_idle (input : RentalProviderHostInput) :
    (heartbeat sameRuntimes db input).writing = false ∧ (heartbeat sameRuntimes db input).commits = none := by
  unfold heartbeat
  split
  · exact ⟨rfl, rfl⟩
  · split <;> exact ⟨rfl, rfl⟩

theorem Sound.step {s : State} (sound : Sound s) (event : Input) (orderly : Orderly s event) :
    Sound (ProviderHosts.step sameRuntimes s event) := by
  cases event with
  | call input heartbeat =>
    have old : ∀ {j : Nat} {stage : Stage}, (s.calls ++ [.requested input heartbeat])[j]? = some stage →
        stage.writing = true → s.calls[j]? = some stage := by
      intro j stage place writing
      obtain ⟨-, rfl⟩ | old := Machine.append_cases place
      · exact absurd writing Bool.false_ne_true
      · exact old
    refine ⟨sound.tables, ?_, ?_, ?_⟩
    · intro j k stage stage' place place' writing writing'
      exact sound.single j k stage stage' (old place writing) (old place' writing') writing writing'
    · intro stage member writing
      obtain ⟨j, place⟩ := List.getElem?_of_mem member
      exact sound.holds stage (List.mem_of_getElem? (old place writing)) writing
    · exact fun quiet => sound.proper fun stage member => quiet stage (List.mem_append_left _ member)
  | go k id now =>
    obtain rests | ⟨stage, here, fresh, next⟩ := go_cases sameRuntimes s k id now
    · rw [rests]
      exact sound
    rw [next]
    by_cases writing : stage.writing = true
    · obtain ⟨tables, leaves⟩ := writing_step sameRuntimes sound.tables writing
        (sound.holds stage (List.mem_of_getElem? here) writing) fresh now
      rw [writing_commits writing, Option.none_or]
      refine sound_set here tables leaves fun j other apart place => ?_
      by_contra busy
      exact apart (sound.single j k other stage place here (by simpa using busy) writing)
    -- a call that makes no change stays out of the way
    have idle : (act sameRuntimes s.db id now stage).1 = s.db →
        (act sameRuntimes s.db id now stage).2.writing = false →
        (act sameRuntimes s.db id now stage).2.commits = none →
        Sound ⟨(act sameRuntimes s.db id now stage).1, s.calls.set k (act sameRuntimes s.db id now stage).2,
          (act sameRuntimes s.db id now stage).2.commits.or s.last⟩ := by
      intro same unwritten uncommitted
      rw [same, uncommitted, Option.none_or]
      have old : ∀ {j : Nat} {other : Stage},
          (s.calls.set k (act sameRuntimes s.db id now stage).2)[j]? = some other → other.writing = true →
          s.calls[j]? = some other := by
        intro j other place busy
        obtain ⟨-, rfl⟩ | ⟨-, old⟩ := Machine.set_cases place
        · exact absurd busy (by simp [unwritten])
        · exact old
      refine ⟨sound.tables, ?_, ?_, ?_⟩
      · intro j j' other other' place place' busy busy'
        exact sound.single j j' other other' (old place busy) (old place' busy') busy busy'
      · intro other member busy
        obtain ⟨j, place⟩ := List.getElem?_of_mem member
        exact sound.holds other (List.mem_of_getElem? (old place busy)) busy
      · intro quiet
        apply sound.proper
        intro other member
        obtain ⟨j, place⟩ := List.getElem?_of_mem member
        by_contra busy
        by_cases own : j = k
        · subst own
          obtain rfl := Option.some.inj (here.symm.trans place)
          exact busy (by simpa using writing)
        · have stays : (s.calls.set k (act sameRuntimes s.db id now stage).2)[j]? = some other := by
            rw [List.getElem?_set_ne (Ne.symm own), place]
          exact busy (quiet other (List.mem_of_getElem? stays))
    have upserting : ∀ input syncOffers, stage.upserts = some (input, syncOffers) →
        act sameRuntimes s.db id now stage = upsertRentalProviderHost s.db input syncOffers id now →
        Sound ⟨(act sameRuntimes s.db id now stage).1, s.calls.set k (act sameRuntimes s.db id now stage).2,
          (act sameRuntimes s.db id now stage).2.commits.or s.last⟩ := by
      intro input syncOffers upserts outcome
      obtain ⟨quiet, finds⟩ := orderly stage here (input, syncOffers) upserts
      obtain failed | ⟨db', host, upserted, tables, holds⟩ :=
        upsert_step sound.tables (sound.proper quiet) finds fresh now
      · rw [failed] at outcome
        exact idle (by rw [outcome]) (by rw [outcome]; rfl) (by rw [outcome]; rfl)
      · rw [outcome, upserted]
        exact sound_set here tables ⟨fun _ => holds, fun done => absurd done.symm Bool.false_ne_true⟩
          fun j other _ place => quiet other (List.mem_of_getElem? place)
    cases stage with
    | requested input beat =>
      cases beat with
      | true => exact idle rfl (heartbeat_idle input).1 (heartbeat_idle input).2
      | false => exact upserting input true rfl rfl
    | checked input syncOffers => exact upserting input syncOffers rfl rfl
    | returned host | failed => exact idle rfl rfl rfl
    | _ => exact absurd rfl writing

theorem Sound.settled (sound : Sound s) (quiet : ∀ stage ∈ s.calls, stage.inFlight = false) :
    Settled s := by
  have proper : Proper s.db s.last := by
    apply sound.proper
    intro stage member
    have idle := quiet stage member
    cases stage <;> first | rfl | cases idle
  refine ⟨?_, ?_, ?_⟩
  · intro input latest
    obtain ⟨⟨host, current⟩, -⟩ := proper.live input latest
    refine ⟨host, ?_, current.enabled⟩
    rw [Database.host, ← current.installation]
    exact sound.tables.installations.find current.member
  · exact fun input latest => (proper.live input latest).2
  · intro row member disabled listing inside own active
    obtain ⟨owner, ownerInside, same, enabled⟩ := (proper.quieted listing inside active).resolve_left id
    obtain rfl := sound.tables.ids.eq ownerInside member (same.trans own)
    rw [disabled] at enabled
    cases enabled

end

/-- Generations only grow and a call with a lower one makes no change, in every run; and in a run
of orderly steps the installation that was written last is the live one, whenever no call is in
flight. -/
theorem one_live_installation (sameRuntimes : List RentalHostRuntime → List RentalHostRuntime → Bool)
    (inputs : Nat → Input) :
    (∀ (n m : Nat) (installationId : String) (generation : Nat), n ≤ m →
      Reached installationId generation (Machine.states (step sameRuntimes) initial inputs n) →
      Reached installationId generation (Machine.states (step sameRuntimes) initial inputs m)) ∧
    (∀ n m k : Nat, n ≤ m → Stale k (Machine.states (step sameRuntimes) initial inputs n) →
      ∀ (id : String) (now : Nat),
        (step sameRuntimes (Machine.states (step sameRuntimes) initial inputs m) (.go k id now)).db =
          (Machine.states (step sameRuntimes) initial inputs m).db) ∧
    ((∀ n, Orderly (Machine.states (step sameRuntimes) initial inputs n) (inputs n)) → ∀ n,
      (∀ stage ∈ (Machine.states (step sameRuntimes) initial inputs n).calls, stage.inFlight = false) →
        Settled (Machine.states (step sameRuntimes) initial inputs n)) := by
  refine ⟨?_, ?_, ?_⟩
  · intro n m installationId generation le reached
    exact Machine.lasts (P := Reached installationId generation) (fun s event => step_reached event) le reached
  · intro n m k le stale id now
    have later := Machine.lasts (P := Stale k) (fun s event here => stale_step here event) le stale
    obtain ⟨stage, here, outcome⟩ := stale_act sameRuntimes later id now
    obtain rests | ⟨stage', here', -, next⟩ := go_cases sameRuntimes
      (Machine.states (step sameRuntimes) initial inputs m) k id now
    · rw [rests]
    · obtain rfl := Option.some.inj (here.symm.trans here')
      rw [next, outcome]
  · intro orderly n quiet
    refine Sound.settled ?_ quiet
    apply Machine.invariant (P := Sound)
    · refine ⟨⟨List.nodup_nil, List.nodup_nil, List.nodup_nil, List.nodup_nil, ?_⟩, ?_, ?_, fun _ => ⟨?_, ?_⟩⟩
      · exact fun _ member => absurd member List.not_mem_nil
      · exact fun j k stage stage' place => by simp [initial] at place
      · exact fun _ member => absurd member List.not_mem_nil
      · exact fun _ latest => by cases latest
      · exact fun _ member => absurd member List.not_mem_nil
    · exact fun m sound => sound.step (inputs m) (orderly m)

/-! ## Calls at once -/

def installation (installationId : String) : RentalProviderHostInput :=
  ⟨installationId, true, 1, 50000, 30, true, [], some 1, List.nodup_nil⟩

/-- The second call comes to its end between the first one's upsert and its next statement. -/
def overtaken : Nat → Input :=
  Machine.finitely
    [.call (installation "one") false, .call (installation "two") false, .go 0 "a" 1, .go 1 "b" 2, .go 1 "c" 3,
      .go 1 "c" 4, .go 1 "c" 5, .go 1 "c" 6, .go 0 "c" 7, .go 0 "c" 8, .go 0 "c" 9, .go 0 "c" 10]
    (.go 0 "c" 11)

/-- The late statements of the older call disable the installation of the newer one. -/
theorem overtaken_unsettled : ¬ ∀ (inputs : Nat → Input) (n : Nat),
    (∀ stage ∈ (Machine.states (step fun _ _ => true) initial inputs n).calls, stage.inFlight = false) →
      Settled (Machine.states (step fun _ _ => true) initial inputs n) := by
  intro every
  have facts : ((Machine.states (step fun _ _ => true) initial overtaken 12).calls.all fun stage =>
        !stage.inFlight) = true ∧
      (Machine.states (step fun _ _ => true) initial overtaken 12).last = some (installation "two") ∧
      ((Machine.states (step fun _ _ => true) initial overtaken 12).db.host "two").map (·.enabled) = some false := by
    decide +kernel
  obtain ⟨quiet, latest, disabled⟩ := facts
  have settled := every overtaken 12 fun stage member => by simpa using List.all_eq_true.mp quiet stage member
  obtain ⟨row, here, enabled⟩ := settled.live _ latest
  rw [show (installation "two").installationId = "two" from rfl] at here
  rw [here, Option.map_some, enabled] at disabled
  cases disabled

end LetAgents.Rental.ProviderHosts
