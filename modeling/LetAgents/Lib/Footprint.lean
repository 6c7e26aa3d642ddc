import LetAgents.Lib.RelyGuarantee

/-!
# Footprints and runs

What a program may write is often fixed by its statements, whatever they read:
`Program.Keeps` is that footprint, and a program within the laws of its call has an
outline from every annotation that locks and writes of its own cannot hurt. The runs
considered are those whose publications meet the conditions of the discipline; they
start from a database that keeps its unique indexes.
-/
namespace LetAgents.Lib.ReadCommitted

variable {K : Type} {V : K → Type} {L N R C : Type}

/-- A change that makes of rows only what is allowed. -/
def Within (law : ∀ k, V k → V k → Prop) (change : ∀ k, V k → Option (V k)) : Prop :=
  ∀ k v v', change k v = some v' → law k v v'

theorem within_atKey [DecidableEq K] {change : V k → Option (V k)}
    (lawful : ∀ v v', change v = some v' → law k v v') : Within law (atKey k change) := by
  intro other v v' made
  by_cases here : other = k
  · subst here
    rw [atKey, Function.update_self] at made
    exact lawful v v' made
  · rw [atKey, Function.update_of_ne here] at made
    cases made

/-- Whatever one transaction reads, it notes only what is of a kind, and makes of rows
and adds only what is allowed. -/
def Program.Keeps (notes : N → Prop) (law : ∀ k, V k → V k → Prop) (born : ∀ k, V k → Prop) :
    Program V L N R → Prop
  | .note learned next => notes learned ∧ Keeps notes law born next
  | .lock _ next => Keeps notes law born next
  | .select next => ∀ seen, Keeps notes law born (next seen)
  | .share _ next => ∀ seen, Keeps notes law born (next seen)
  | .update change next =>
    Within law change ∧ ∀ seen rows, Keeps notes law born (next seen rows)
  | .insert k row next conflict =>
    born k row ∧ Keeps notes law born next ∧ Keeps notes law born conflict
  | .emit .. | .commit _ => False
  | .finish _ | .abort _ => True

/-- What holds of a program as soon as it holds of the programs that its statements go on
with, when these keep to a footprint. -/
structure Program.Closed (notes : N → Prop) (law : ∀ k, V k → V k → Prop) (born : ∀ k, V k → Prop)
    (P : Program V L N R → Prop) : Prop where
  note : ∀ {learned next}, notes learned → P next → P (.note learned next)
  lock : ∀ {key next}, P next → P (.lock key next)
  select : ∀ {next}, (∀ seen, P (next seen)) → P (.select next)
  share : ∀ {target next}, (∀ seen, P (next seen)) → P (.share target next)
  update : ∀ {change next}, Within law change → (∀ seen rows, P (next seen rows)) →
    P (.update change next)
  insert : ∀ {k row next conflict}, born k row → P next → P conflict → P (.insert k row next conflict)
  finish : ∀ result, P (.finish result)
  abort : ∀ result, P (.abort result)

section Closed

variable {notes : N → Prop} {law : ∀ k, V k → V k → Prop} {born : ∀ k, V k → Prop}

theorem keeps_closed : Program.Closed (V := V) (L := L) (R := R) notes law born
    (Program.Keeps notes law born) where
  note noted rest := ⟨noted, rest⟩
  lock rest := rest
  select rest := rest
  share rest := rest
  update within rest := ⟨within, rest⟩
  insert bears rest otherwise := ⟨bears, rest, otherwise⟩
  finish _ := trivial
  abort _ := trivial

/-- What the statements of a footprint keep holds of every program within it. -/
theorem Program.Closed.of_keeps (closed : Program.Closed notes law born P)
    (keeps : program.Keeps notes law born) : P program := by
  induction program with
  | note learned next ih => exact closed.note keeps.1 (ih keeps.2)
  | lock key next ih => exact closed.lock (ih keeps)
  | select next ih => exact closed.select fun seen => ih seen (keeps seen)
  | share target next ih => exact closed.share fun seen => ih seen (keeps seen)
  | update change next ih =>
    exact closed.update keeps.1 fun seen rows => ih seen rows (keeps.2 seen rows)
  | insert k row next conflict ih ih' =>
    exact closed.insert keeps.1 (ih keeps.2.1) (ih' keeps.2.2)
  | emit | commit => exact keeps.elim
  | finish result => exact closed.finish result
  | abort result => exact closed.abort result

end Closed

namespace Discipline

variable {sys : System V C L N R} (d : Discipline sys)

/-- Rows that a statement of a footprint may write. -/
def Written (law : ∀ k, V k → V k → Prop) (born : ∀ k, V k → Prop) (view rows : Rows V) : Prop :=
  ∀ ⦃k v'⦄, rows k = some v' → (∃ v, view k = some v ∧ law k v v') ∨ born k v'

/-- Knowledge of one transaction that statements of a footprint keep, and that its end
makes use of. -/
structure Kept (c : C) (notes : N → Prop) (law : ∀ k, V k → V k → Prop) (born : ∀ k, V k → Prop)
    (A : Footing V L → Prop) : Prop where
  lawful : ∀ k v v', law k v v' → d.law c k v v'
  bears : ∀ k row, born k row → d.born c k row
  stable : ∀ n, notes n → d.Stable c n A
  hold : ∀ f key, A f → A (f.hold key)
  share : ∀ f rows, A f → A (f.share rows)
  write : ∀ f rows, A f → Written law born f.view rows → A (f.write rows)
  publish : ∀ p : Publication V C L N R, p.call = c → p.rows = p.footing.written → notes p.note →
    A p.footing → d.Proper c p.footing → d.meets p → d.guarantee p ∧ d.invariant p.footing.view

variable {d}

/-- What a footing has written and locked is its own. -/
theorem stable_own (c : C) (n : N) (A : Rows V → List K → List L → Prop) :
    d.Stable c n fun f => A f.written f.shared f.held := fun _ _ here _ _ _ => here

/-- What the laws keep of a committed row. -/
theorem stable_of_law (c : C) (n : N) {P : V k → Prop}
    (keeps : ∀ c' v v', d.law c' k v v' → P v → P v') :
    d.Stable c n fun f => ∃ v, f.base k = some v ∧ P v := by
  rintro f p ⟨v, has, here⟩ _ elsewhere _
  cases published : p.rows k with
  | none => exact ⟨v, (Rows.over_of_none published).trans has, here⟩
  | some v' =>
    rw [← elsewhere.base] at has
    exact ⟨v', Rows.over_of_some published,
      keeps p.call v v' (elsewhere.lawful.of_base has published) here⟩

/-- The same of a row as the transaction sees it. -/
theorem stable_seen (c : C) (n : N) {P : V k → Prop}
    (keeps : ∀ c' v v', d.law c' k v v' → P v → P v') :
    d.Stable c n fun f => ∃ v, f.view k = some v ∧ P v := by
  rintro f p ⟨v, has, here⟩ proper elsewhere apart
  rcases Rows.over_eq_some has with own | ⟨free, under⟩
  · exact ⟨v, Rows.over_of_some own, here⟩
  · obtain ⟨v', is, there⟩ := stable_of_law c n keeps ⟨v, under, here⟩ proper elsewhere apart
    exact ⟨v', (Rows.over_of_none free).trans is, there⟩

/-- The others leave alone the rows that a thread has written. -/
theorem Elsewhere.spares (elsewhere : d.Elsewhere f p) (mine : f.written k ≠ none) :
    p.rows.over f.base k = f.base k := by
  refine Rows.over_of_none ?_
  by_contra published
  obtain ⟨row, is⟩ := Option.ne_none_iff_exists'.mp published
  exact mine (elsewhere.rows is).1

/-- No one else touches a row that the transaction has written. -/
theorem stable_mine (c : C) (n : N) (k : K) (P : Option (V k) → Option (V k) → Prop) :
    d.Stable c n fun f => f.written k ≠ none ∧ P (f.base k) (f.written k) := by
  rintro f p ⟨mine, here⟩ _ elsewhere _
  refine ⟨mine, ?_⟩
  change P (p.rows.over f.base k) (f.written k)
  rw [elsewhere.spares mine]
  exact here

theorem stable_revises (c : C) (n : N) (k : K) (Q : V k → V k → Prop) :
    d.Stable c n (Footing.Revises (L := L) · k Q) := by
  rintro f p ⟨v, v', has, written, here⟩ proper elsewhere apart
  have mine : f.written k ≠ none := by rw [written]; exact Option.some_ne_none v'
  have stays := stable_mine (d := d) c n k (fun base written => ∃ v v', base = some v ∧ written = some v' ∧ Q v v')
  exact (stays ⟨mine, v, v', has, written, here⟩ proper elsewhere apart).2

section Updates

variable [DecidableEq K] {f : Footing V L} {k : K} {change : V k → Option (V k)}

/-- An update that finds its row. -/
theorem revises_of_chosen (free : f.written k = none)
    (found : chosen (atKey k change) ⟨f.view, keys⟩ ≠ []) :
    (f.write (revised (atKey k change) f.view)).Revises k fun v v' => change v = some v' := by
  obtain ⟨v, v', seen, made⟩ := of_chosen_atKey found
  change f.view k = some v at seen
  have has : f.base k = some v := by rw [← seen, Footing.view, Rows.over_of_none free]
  refine ⟨v, v', has, ?_, made⟩
  have written : revised (atKey k change) f.view k = some v' := by
    rw [revised_atKey, seen, Option.bind_some, made]
  exact Rows.over_of_some written

theorem written_of_ne (apart : other ≠ k) :
    (f.write (revised (atKey k change) f.view)).written other = f.written other :=
  Rows.over_of_none (revised_atKey_ne apart change f.view)

omit [DecidableEq K] in
theorem written_of_spared {change : ∀ k, V k → Option (V k)} (spares : ∀ v, change k v = none) :
    (f.write (revised change f.view)).written k = f.written k :=
  Rows.over_of_none (Option.bind_eq_none_iff.mpr fun v _ => spares v)

end Updates

/-- Outlines from a knowledge that the statements of a footprint keep. -/
theorem outlines_closed [DecidableEq K] {law : ∀ k, V k → V k → Prop} {born : ∀ k, V k → Prop}
    (kept : d.Kept c notes law born A) :
    Program.Closed notes law born fun program => ∀ n, notes n → d.Outline c program n A where
  note noted rest n _ := rest _ noted
  lock rest n noted :=
    Outline.lock (kept.stable n noted) (fun f here => kept.hold f _ here) (rest n noted)
  select rest n noted := Outline.glance (kept.stable n noted) fun seen => rest seen n noted
  share rest n noted := Outline.share (kept.stable n noted) fun f keys here _ _ =>
    ⟨A, kept.share f _ here, rest _ n noted⟩
  update within rest n noted := by
    refine Outline.update (kept.stable n noted)
      (fun _ _ _ k v v' _ made => kept.lawful k v v' (within k v v' made))
      fun f keys here _ _ => ⟨A, kept.write f _ here fun k v' has => ?_, rest _ _ n noted⟩
    obtain ⟨v, seen, made⟩ := revised_eq_some has
    exact .inl ⟨v, seen, within k v v' made⟩
  insert bears rest otherwise n noted := by
    refine Outline.insert (kept.stable n noted) (kept.bears _ _ bears)
      (fun f _ here _ _ _ => ⟨A, kept.write f _ here fun other v' has => ?_, rest n noted⟩)
      fun _ _ here _ _ _ => ⟨A, here, otherwise n noted⟩
    cases Rows.single_eq_some has
    exact .inr bears
  finish _ n noted := Outline.finish (kept.stable n noted) fun f here proper =>
    kept.publish _ rfl rfl noted here proper
  abort _ n _ := Outline.abort

/-- A program within a footprint. -/
theorem outline_of_keeps [DecidableEq K] {c : C} {notes : N → Prop} {law : ∀ k, V k → V k → Prop}
    {born : ∀ k, V k → Prop} {A : Footing V L → Prop} {program : Program V L N R}
    (keeps : program.Keeps notes law born) (kept : d.Kept c notes law born A) {n : N}
    (noted : notes n) : d.Outline c program n A :=
  (outlines_closed kept).of_keeps keeps n noted

/-- A program within the laws of its call, when its commits promise nothing else. -/
theorem outline_of_laws [DecidableEq K]
    (keeps : program.Keeps (fun _ => True) (d.law c) (d.born c))
    (publish : ∀ p : Publication V C L N R, p.call = c → p.rows = p.footing.written →
      d.Proper c p.footing → d.meets p → d.guarantee p ∧ d.invariant p.footing.view) :
    d.Outline c program n Footing.Idle := by
  have kept : d.Kept c (fun _ => True) (d.law c) (d.born c) fun _ => True :=
    { lawful := fun _ _ _ law => law
      bears := fun _ _ born => born
      stable := fun n _ => d.stable_true c n
      hold := fun _ _ _ => trivial
      share := fun _ _ _ => trivial
      write := fun _ _ _ _ => trivial
      publish := fun p call rows _ _ proper meets => publish p call rows proper meets }
  exact (outline_of_keeps keeps kept trivial).of_idle fun _ _ => trivial

/-- The same for a program that begins with a lock. -/
theorem outline_of_lock [DecidableEq K]
    (keeps : next.Keeps (fun _ => True) (d.law c) (d.born c))
    (publish : ∀ p : Publication V C L N R, p.call = c → p.rows = p.footing.written →
      key ∈ p.footing.held → d.Proper c p.footing → d.meets p →
        d.guarantee p ∧ d.invariant p.footing.view) :
    d.Outline c (.lock key next) n Footing.Idle := by
  have kept : d.Kept c (fun _ => True) (d.law c) (d.born c) fun f => key ∈ f.held :=
    { lawful := fun _ _ _ law => law
      bears := fun _ _ born => born
      stable := fun n _ => stable_own c n fun _ _ held => key ∈ held
      hold := fun _ _ here => .tail _ here
      share := fun _ _ here => here
      write := fun _ _ here _ => here
      publish := fun p call rows _ here proper meets => publish p call rows here proper meets }
  exact Outline.lock (d.stable_idle c n) (fun _ _ => .head _)
    (outline_of_keeps keeps kept trivial)

end Discipline

/-! ## Runs -/

/-- A store that keeps its unique indexes. -/
structure Database (sys : System V C L N R) where
  rows : Rows V
  keys : List K
  lists : Discipline.Lists rows keys
  consistent : sys.Consistent rows

namespace Database

variable {sys : System V C L N R}

/-- The store without calls in flight. -/
def state (db : Database sys) : State V C L N R where
  base := db.rows
  keys := db.keys

def empty : Database sys where
  rows := fun _ => none
  keys := []
  lists := ⟨fun _ has => absurd rfl has, List.nodup_nil⟩
  consistent := nofun

variable [DecidableEq K]

/-- The store with one more row. -/
def add (db : Database sys) (symm : ∀ {k v k' v'}, sys.clash k v k' v' = sys.clash k' v' k v)
    (k : K) (row : V k) (vacant : sys.Vacant ⟨db.rows, db.keys⟩ k row) : Database sys where
  rows := (Rows.single k row).over db.rows
  keys := db.keys.insert k
  lists := by
    refine ⟨fun other has => ?_, db.lists.2.insert⟩
    obtain ⟨found, seen⟩ := Option.ne_none_iff_exists'.mp has
    rcases Rows.over_eq_some seen with newly | ⟨_, older⟩
    · cases Rows.single_eq_some newly
      exact List.mem_insert_self
    · exact List.mem_insert_of_mem (db.lists.1 other (by rw [older]; exact Option.some_ne_none _))
  consistent := Discipline.consistent_single symm db.consistent db.lists vacant

end Database

variable [DecidableEq K]

/-- Steps that may make public only what meets a condition, also with regard to the
other calls in flight. -/
def System.Admitted [DecidableEq L] (sys : System V C L N R) (meets : Publication V C L N R → Prop)
    (apart : Publication V C L N R → C → N → Prop) (s : State V C L N R) (action : Action C) : Prop :=
  ∀ i p, action = .run i → sys.publication s i = some p →
    meets p ∧ ∀ b ∈ s.others i, apart p b.call b.note

theorem System.admitted_of [DecidableEq L] {sys : System V C L N R} (all : ∀ p, meets p)
    (free : ∀ p c n, apart p c n) (s : State V C L N R) (action : Action C) :
    sys.Admitted meets apart s action :=
  fun _ p _ _ => ⟨all p, fun b _ => free p b.call b.note⟩

instance [DecidableEq L] (sys : System V C L N R) (meets : Publication V C L N R → Prop)
    (apart : Publication V C L N R → C → N → Prop) [DecidablePred meets]
    [∀ p c n, Decidable (apart p c n)] (s : State V C L N R) (action : Action C) :
    Decidable (sys.Admitted meets apart s action) :=
  decidable_of_iff (∀ p ∈ sys.made s action, meets p ∧
      ∀ b ∈ s.others (match action with | .run i => i | _ => 0), apart p b.call b.note) <| by
    cases action with
    | run i =>
      refine ⟨fun all j p is publishes => ?_, fun all p made => all i p rfl made⟩
      cases is
      exact all p publishes
    | start | fail => exact ⟨fun _ _ _ is => (nomatch is), fun _ _ made => (nomatch made)⟩

namespace Discipline

variable [DecidableEq L] {sys : System V C L N R} {d : Discipline sys}

theorem admits_admitted : d.Admits (sys.Admitted d.meets d.apart) :=
  fun _ _ _ allows publishes => allows _ _ rfl publishes

/-- What a run of outlined calls makes public. -/
structure Honoured (d : Discipline sys) (p : Publication V C L N R) : Prop where
  meets : d.meets p
  proper : d.Proper p.call p.footing
  lawful : d.Lawful p.call p.rows p.footing.base
  guarantee : d.guarantee p

/-- Every admitted run keeps the unique indexes and the invariant, and its publications
keep their promises. -/
theorem outlined_run (outlined : d.Outlined) {db : Database sys} (invariant : d.invariant db.rows)
    (run : sys.Run (sys.Admitted d.meets d.apart) db.state published s) :
    d.Inv s ∧ ∀ p ∈ published, d.Honoured p := by
  have clean : d.Clean db.state := ⟨db.lists, db.consistent, invariant, rfl⟩
  induction run with
  | initial => exact ⟨clean.inv, nofun⟩
  | @step published s next action before allows ok ih =>
    obtain ⟨inv, kept⟩ := ih
    refine ⟨inv.step outlined admits_admitted allows ok, fun p member => ?_⟩
    rcases List.mem_append.mp member with earlier | now
    · exact kept p earlier
    · cases action with
      | start call | fail i => cases now
      | run i =>
        have publishes : sys.publication s i = some p := Option.mem_toList.mp now
        have meets := (allows i p rfl publishes).1
        have promised := inv.published publishes meets
        exact ⟨meets, promised.proper, promised.lawful, promised.guarantee⟩

/-- What the commits make of a property of the committed store and of the commits so far
holds in every admitted run. -/
theorem commits_induction (outlined : d.Outlined) {db : Database sys}
    (invariant : d.invariant db.rows) {P : List (Publication V C L N R) → Rows V → Prop}
    (initial : P [] db.rows)
    (commit : ∀ published base p, P published base → d.Honoured p → p.footing.base = base →
      P (published ++ [p]) (p.rows.over base))
    (run : sys.Run (sys.Admitted d.meets d.apart) db.state published s) : P published s.base := by
  induction run with
  | initial => exact initial
  | @step published s next action before allows ok ih =>
    obtain ⟨inv, _⟩ := outlined_run outlined invariant before
    cases action with
    | start call =>
      cases ok
      exact (List.append_nil published).symm ▸ ih
    | fail i =>
      obtain ⟨_, _, rfl⟩ := Option.map_eq_some_iff.mp ok
      exact (List.append_nil published).symm ▸ ih
    | run i =>
      rcases System.step_run ok with ⟨p, publishes, base⟩ | ⟨silent, base⟩
      · have promised := inv.published publishes (allows i p rfl publishes).1
        have honoured : d.Honoured p :=
          ⟨(allows i p rfl publishes).1, promised.proper, promised.lawful, promised.guarantee⟩
        rw [base, System.made, publishes]
        exact commit published s.base p ih honoured promised.base
      · rw [base, System.made, silent]
        exact (List.append_nil published).symm ▸ ih

end Discipline

end LetAgents.Lib.ReadCommitted
