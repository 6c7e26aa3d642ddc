import Mathlib.Data.List.Basic
import Mathlib.Data.List.ReduceOption
import Mathlib.Logic.Function.Basic

/-!
# Transactions at the READ COMMITTED level

Calls run as programs of SQL statements over one store. A statement is atomic: it
sees the last committed version of every row and the versions its own transaction
has written. A write or a row lock waits while another transaction in flight has
written or locked the row, an insert waits while one has written a row that a
unique index sets against it, and an advisory lock waits for its holder. All of
them are held until the transaction commits or ends without a commit.

A row is addressed by its key, and the type of the row is that of its key, so one
store holds the tables of a whole schema.
-/
namespace LetAgents.Lib.ReadCommitted

variable {K : Type} {V : K → Type} {L N R C : Type}

/-- A version of the rows of a store; a key without a row has none. -/
abbrev Rows (V : K → Type) := ∀ k, Option (V k)

/-- The written version of a row where there is one, else the version under it. -/
def Rows.over (written base : Rows V) : Rows V := fun k => (written k).or (base k)

variable {written base : Rows V} {k other : K}

namespace Rows

theorem over_of_some (has : written k = some row) : written.over base k = some row := by
  rw [Rows.over, has, Option.some_or]

theorem over_of_none (has : written k = none) : written.over base k = base k := by
  rw [Rows.over, has, Option.none_or]

/-- A row of the overlay was written, or it is a row underneath that was not. -/
theorem over_eq_some (has : written.over base k = some row) :
    written k = some row ∨ written k = none ∧ base k = some row := by
  cases own : written k with
  | none => exact .inr ⟨rfl, by rwa [over_of_none own] at has⟩
  | some version =>
    rw [over_of_some own] at has
    exact .inl (own ▸ has)

theorem over_assoc (newer written base : Rows V) :
    (newer.over written).over base = newer.over (written.over base) :=
  funext fun _ => Option.or_assoc

variable [DecidableEq K]

/-- The store with nothing but one row. -/
def single (k : K) (row : V k) : Rows V := Function.update (fun _ => none) k (some row)

@[simp] theorem single_self (k : K) (row : V k) : single k row k = some row :=
  Function.update_self _ _ _

theorem single_ne (row : V k) (apart : other ≠ k) : single k row other = none :=
  Function.update_of_ne apart _ _

/-- The only row, at its key. -/
theorem single_eq_some (has : single k row other = some found) :
    (⟨other, found⟩ : Sigma V) = ⟨k, row⟩ := by
  by_cases same : other = k
  · subst same
    rw [single_self] at has
    cases has
    rfl
  · rw [single_ne row same] at has
    cases has

end Rows

/-- What a statement reads: the rows it sees, and keys among which theirs are. -/
structure Seen (V : K → Type) where
  rows : Rows V
  keys : List K

/-- What remains of a call. `note` is no statement: it records, together with the
statement before it, what the call has learned. -/
inductive Program (V : K → Type) (L N R : Type)
  | note (learned : N) (next : Program V L N R)
  /-- `pg_advisory_xact_lock` -/
  | lock (key : L) (next : Program V L N R)
  | select (next : Seen V → Program V L N R)
  /-- `SELECT … FOR SHARE` -/
  | share (target : ∀ k, V k → Bool) (next : Seen V → Program V L N R)
  /-- `UPDATE … RETURNING`; with versions that stay, `SELECT … FOR UPDATE` -/
  | update (change : ∀ k, V k → Option (V k)) (next : Seen V → List K → Program V L N R)
  | insert (k : K) (row : V k) (next conflict : Program V L N R)
  /-- an insert that another connection commits at once -/
  | emit (k : K) (row : V k) (next conflict : Program V L N R)
  /-- COMMIT; a later statement begins the next transaction -/
  | commit (next : Program V L N R)
  /-- COMMIT, and the call returns -/
  | finish (result : R)
  /-- ROLLBACK, and the call returns or throws -/
  | abort (result : R)

/-- A call in flight, with what its transaction has written and locked. -/
structure Thread (V : K → Type) (C L N R : Type) where
  call : C
  note : N
  rest : Program V L N R
  written : Rows V := fun _ => none
  shared : List K := []
  held : List L := []

structure State (V : K → Type) (C L N R : Type) where
  base : Rows V
  keys : List K := []
  pool : List (Option (Thread V C L N R)) := []
  returned : List (C × R) := []

/-- The calls of a program, and the pairs of rows that a unique index keeps apart. -/
structure System (V : K → Type) (C L N R : Type) where
  program : C → Program V L N R
  fresh : N
  clash : ∀ k, V k → ∀ k', V k' → Bool

inductive Action (C : Type)
  | start (call : C)
  | run (i : Nat)
  | fail (i : Nat)

/-- The notes at the head of a program take effect with the statement before them. -/
def Program.settle : N → Program V L N R → N × Program V L N R
  | _, .note learned next => next.settle learned
  | n, rest => (n, rest)

namespace Thread

def goOn (thread : Thread V C L N R) (rest : Program V L N R) : Thread V C L N R :=
  { thread with note := (rest.settle thread.note).1, rest := (rest.settle thread.note).2 }

def view (thread : Thread V C L N R) (base : Rows V) : Rows V := thread.written.over base

/-- The thread as its next transaction begins. -/
def released (thread : Thread V C L N R) : Thread V C L N R :=
  { thread with written := fun _ => none, shared := [], held := [] }

end Thread

namespace State

variable (s : State V C L N R)

/-- The other calls in flight. -/
def others (i : Nat) : List (Thread V C L N R) := (s.pool.eraseIdx i).reduceOption

def put (i : Nat) (thread : Thread V C L N R) : State V C L N R :=
  { s with pool := s.pool.set i (some thread) }

def drop (i : Nat) : State V C L N R := { s with pool := s.pool.set i none }

end State

/-! ## Steps -/

/-- What a thread relies on between two of its statements. -/
structure Footing (V : K → Type) (L : Type) where
  base : Rows V
  written : Rows V
  shared : List K
  held : List L

namespace Footing

variable (f : Footing V L)

def view : Rows V := f.written.over f.base

def under (base : Rows V) : Footing V L := { f with base := base }

def hold (key : L) : Footing V L := { f with held := key :: f.held }

def share (chosen : List K) : Footing V L := { f with shared := chosen ++ f.shared }

def write (rows : Rows V) : Footing V L := { f with written := rows.over f.written }

/-- Nothing written or locked. -/
def Idle : Prop := (∀ k, f.written k = none) ∧ f.shared = [] ∧ f.held = []

/-- The transaction has given a row a new version. -/
def Revises (k : K) (Q : V k → V k → Prop) : Prop :=
  ∃ v v', f.base k = some v ∧ f.written k = some v' ∧ Q v v'

theorem view_of_clean {f : Footing V L} (clean : ∀ k, f.written k = none) : f.view = f.base :=
  funext fun k => Rows.over_of_none (clean k)

def committed : Footing V L :=
  { base := f.view, written := fun _ => none, shared := [], held := [] }

end Footing

def Thread.footing (thread : Thread V C L N R) (base : Rows V) : Footing V L :=
  ⟨base, thread.written, thread.shared, thread.held⟩

/-- A change of the committed store: by whom, from where, which rows, and how the
call goes on. -/
structure Publication (V : K → Type) (C L N R : Type) where
  call : C
  note : N
  footing : Footing V L
  rows : Rows V
  after : Option N
  result : Option R

/-- The versions that an update gives the rows of a view. -/
def revised (change : ∀ k, V k → Option (V k)) (rows : Rows V) : Rows V :=
  fun k => (rows k).bind (change k)

def chosen (change : ∀ k, V k → Option (V k)) (seen : Seen V) : List K :=
  seen.keys.filter fun k => (revised change seen.rows k).isSome

def targeted (target : ∀ k, V k → Bool) (seen : Seen V) : List K :=
  seen.keys.filter fun k => (seen.rows k).any (target k)

/-- An update of the row with a key, or of none. -/
def atKey [DecidableEq K] (k : K) (change : V k → Option (V k)) : ∀ k, V k → Option (V k) :=
  Function.update (fun _ _ => none) k change

/-- A row that an update gives a new version. -/
theorem revised_eq_some (has : revised change rows k = some v') :
    ∃ v, rows k = some v ∧ change k v = some v' :=
  Option.bind_eq_some_iff.mp has

theorem revised_atKey [DecidableEq K] (k : K) (change : V k → Option (V k)) (rows : Rows V) :
    revised (atKey k change) rows k = (rows k).bind change := by
  rw [revised, atKey, Function.update_self]

theorem revised_atKey_ne [DecidableEq K] (apart : other ≠ k) (change : V k → Option (V k))
    (rows : Rows V) : revised (atKey k change) rows other = none := by
  rw [revised, atKey, Function.update_of_ne apart, Option.bind_fun_none]

variable {seen : Seen V}

theorem mem_chosen (listed : k ∈ seen.keys) (has : revised change seen.rows k = some v') :
    k ∈ chosen change seen :=
  List.mem_filter.mpr ⟨listed, by rw [has, Option.isSome_some]⟩

/-- An update of one row that finds it. -/
theorem of_chosen_atKey [DecidableEq K] (found : chosen (atKey k change) seen ≠ []) :
    ∃ v v', seen.rows k = some v ∧ change v = some v' := by
  obtain ⟨other, member⟩ := List.exists_mem_of_ne_nil _ found
  obtain ⟨v', made⟩ := Option.isSome_iff_exists.mp (List.mem_filter.mp member).2
  by_cases here : other = k
  · subst here
    rw [revised_atKey] at made
    obtain ⟨v, has, made⟩ := Option.bind_eq_some_iff.mp made
    exact ⟨v, v', has, made⟩
  · rw [revised_atKey_ne here] at made
    cases made

theorem mem_targeted (listed : k ∈ seen.keys) (has : seen.rows k = some row)
    (hit : target k row = true) : k ∈ targeted target seen :=
  List.mem_filter.mpr ⟨listed, by rw [has, Option.any_some, hit]⟩

namespace System

variable (sys : System V C L N R)

/-- No row of the view stands where the new row goes or against it. -/
def Vacant (seen : Seen V) (k : K) (row : V k) : Prop :=
  seen.rows k = none ∧ ∀ k' ∈ seen.keys, (seen.rows k').any (sys.clash k row k') = false

instance [DecidableEq K] (seen : Seen V) (k : K) (row : V k) :
    Decidable (sys.Vacant seen k row) := by
  unfold Vacant; infer_instance

variable [DecidableEq K]

/-- No transaction in flight decides whether the new row may stand. -/
def Clear (threads : List (Thread V C L N R)) (seen : Seen V) (k : K) (row : V k) : Prop :=
  ∀ thread ∈ threads, thread.written k = none ∧ k ∉ thread.shared ∧
    ∀ k' ∈ seen.keys, thread.written k' ≠ none →
      (thread.written k').any (sys.clash k row k') = false ∧
        (seen.rows k').any (sys.clash k row k') = false

instance (threads : List (Thread V C L N R)) (seen : Seen V) (k : K) (row : V k) :
    Decidable (sys.Clear threads seen k row) := by
  unfold Clear; infer_instance

variable [DecidableEq L] (s : State V C L N R) (i : Nat) (thread : Thread V C L N R)

/-- The next statement of a thread, unless it waits. -/
def execute : Option (State V C L N R) :=
  let seen : Seen V := ⟨thread.view s.base, s.keys⟩
  match thread.rest with
  | .note _ _ => none
  | .lock key next =>
    if ∀ other ∈ s.others i, key ∉ other.held then
      some (s.put i ({ thread with held := key :: thread.held }.goOn next))
    else none
  | .select next => some (s.put i (thread.goOn (next seen)))
  | .share target next =>
    let rows := targeted target seen
    if ∀ other ∈ s.others i, ∀ k ∈ rows, other.written k = none then
      some (s.put i ({ thread with shared := rows ++ thread.shared }.goOn (next seen)))
    else none
  | .update change next =>
    let rows := chosen change seen
    if ∀ other ∈ s.others i, ∀ k ∈ rows, other.written k = none ∧ k ∉ other.shared then
      let written := (revised change seen.rows).over thread.written
      some (s.put i ({ thread with written := written }.goOn
        (next ⟨written.over s.base, s.keys⟩ rows)))
    else none
  | .insert k row next conflict =>
    if sys.Clear (s.others i) ⟨s.base, s.keys⟩ k row then
      if sys.Vacant seen k row then
        some { s.put i ({ thread with written := (Rows.single k row).over thread.written }.goOn
            next) with
          keys := s.keys.insert k }
      else some (s.put i (thread.goOn conflict))
    else none
  | .emit k row next conflict =>
    if sys.Clear s.pool.reduceOption ⟨s.base, s.keys⟩ k row then
      if sys.Vacant ⟨s.base, s.keys⟩ k row then
        some { s.put i (thread.goOn next) with
          base := (Rows.single k row).over s.base
          keys := s.keys.insert k }
      else some (s.put i (thread.goOn conflict))
    else none
  | .commit next =>
    some { s.put i (thread.released.goOn next) with base := thread.view s.base }
  | .finish result =>
    some { s.drop i with
      base := thread.view s.base
      returned := s.returned ++ [(thread.call, result)] }
  | .abort result =>
    some { s.drop i with returned := s.returned ++ [(thread.call, result)] }

/-- The change of the committed store that the next statement of a thread makes. -/
def publishes : Option (Publication V C L N R) :=
  let publication := fun rows after result =>
    some ⟨thread.call, thread.note, thread.footing s.base, rows, after, result⟩
  match thread.rest with
  | .commit next => publication thread.written (some (next.settle thread.note).1) none
  | .finish result => publication thread.written none (some result)
  | .emit k row next _ =>
    if sys.Clear s.pool.reduceOption ⟨s.base, s.keys⟩ k row ∧
        sys.Vacant ⟨s.base, s.keys⟩ k row then
      publication (Rows.single k row) (some (next.settle thread.note).1) none
    else none
  | _ => none

def started (call : C) : Thread V C L N R :=
  { call := call
    note := ((sys.program call).settle sys.fresh).1
    rest := ((sys.program call).settle sys.fresh).2 }

/-- One step of the system; a call may fail before any of its statements. -/
def step : State V C L N R → Action C → Option (State V C L N R)
  | s, .start call => some { s with pool := s.pool ++ [some (sys.started call)] }
  | s, .run i => s.pool[i]?.join.bind (sys.execute s i)
  | s, .fail i => s.pool[i]?.join.map fun _ => s.drop i

def publication : Option (Publication V C L N R) := s.pool[i]?.join.bind (sys.publishes s)

/-- What a step makes public. -/
def made : Action C → Option (Publication V C L N R)
  | .run i => sys.publication s i
  | _ => none

/-- The publications, in the order of the commits, and the state of a run of allowed
steps. -/
inductive Run (allowed : State V C L N R → Action C → Prop) (initial : State V C L N R) :
    List (Publication V C L N R) → State V C L N R → Prop
  | initial : Run allowed initial [] initial
  | step {published : List (Publication V C L N R)} {s next : State V C L N R}
      {action : Action C} (before : Run allowed initial published s) (allows : allowed s action)
      (ok : sys.step s action = some next) :
      Run allowed initial (published ++ (sys.made s action).toList) next

/-- A run on fixed inputs: its publications and its last state. -/
def replay (allowed : State V C L N R → Action C → Prop) [∀ s action, Decidable (allowed s action)] :
    State V C L N R → List (Action C) → Option (List (Publication V C L N R) × State V C L N R)
  | s, [] => some ([], s)
  | s, action :: actions =>
    if allowed s action then
      (sys.step s action).bind fun next => (replay allowed next actions).map fun (published, last) =>
        ((sys.made s action).toList ++ published, last)
    else none

end System

variable {allowed : State V C L N R → Action C → Prop}

namespace System

variable [DecidableEq K] [DecidableEq L] {sys : System V C L N R} {s next : State V C L N R}

theorem Run.mono (more : ∀ s action, allowed s action → allowed' s action)
    {initial : State V C L N R} (run : sys.Run allowed initial published s) :
    sys.Run allowed' initial published s := by
  induction run with
  | initial => exact .initial
  | step _ allows ok ih => exact ih.step (more _ _ allows) ok

theorem Run.replayed [∀ s action, Decidable (allowed s action)] {initial : State V C L N R}
    (run : sys.Run allowed initial published s)
    (replays : sys.replay allowed s actions = some (more, last)) :
    sys.Run allowed initial (published ++ more) last := by
  induction actions generalizing published more s with
  | nil =>
    cases replays
    rwa [List.append_nil]
  | cons action actions ih =>
    rw [replay] at replays
    split at replays
    · rename_i allows
      obtain ⟨next, ok, replays⟩ := Option.bind_eq_some_iff.mp replays
      obtain ⟨⟨later, _⟩, rest, rfl, rfl⟩ := Option.map_eq_some_iff.mp replays
      rw [← List.append_assoc]
      exact ih (run.step allows ok) rest
    · cases replays

/-- A run that the check of a replay finds. -/
theorem exists_run [∀ s action, Decidable (allowed s action)]
    (found : (sys.replay allowed s actions).any check = true) :
    ∃ published last, sys.Run allowed s published last ∧ check (published, last) = true := by
  cases replays : sys.replay allowed s actions with
  | none => rw [replays] at found; cases found
  | some outcome =>
    rw [replays, Option.any_some] at found
    exact ⟨outcome.1, outcome.2, Run.initial.replayed replays, found⟩

/-- Only a publication changes the committed store. -/
theorem step_run (ok : sys.step s (.run i) = some next) :
    (∃ p, sys.publication s i = some p ∧ next.base = p.rows.over s.base) ∨
      sys.publication s i = none ∧ next.base = s.base := by
  obtain ⟨thread, found, ok⟩ := Option.bind_eq_some_iff.mp ok
  rw [publication, found, Option.bind_some]
  cases code : thread.rest with
  | note | lock | select | share | update | insert | abort =>
    refine .inr ⟨by simp only [publishes, code], ?_⟩
    simp only [execute, code] at ok
    grind [State.put, State.drop]
  | commit | finish =>
    simp only [execute, code] at ok
    cases ok
    left
    simp only [publishes, code]
    exact ⟨_, rfl, rfl⟩
  | emit k row rest conflict =>
    simp only [execute, code] at ok
    split at ok
    · rename_i clear
      split at ok
      · rename_i vacant
        cases ok
        exact .inl ⟨_, by simp only [publishes, code]; exact if_pos ⟨clear, vacant⟩, rfl⟩
      · rename_i occupied
        cases ok
        refine .inr ⟨?_, rfl⟩
        simp only [publishes, code]
        exact if_neg fun both => occupied both.2
    · cases ok

/-- A call that returns with a commit. -/
theorem step_returned (ok : sys.step s (.run i) = some next)
    (publishes : sys.publication s i = some p)
    (returns : next.returned = s.returned ++ [(c, result)]) :
    p.call = c ∧ p.result = some result := by
  obtain ⟨thread, found, ok⟩ := Option.bind_eq_some_iff.mp ok
  rw [publication, found, Option.bind_some] at publishes
  have goes : s.returned ≠ s.returned ++ [(c, result)] := by simp
  cases code : thread.rest with
  | note | lock | select | share | update | insert | abort =>
    simp only [System.publishes, code] at publishes
    cases publishes
  | commit next =>
    simp only [execute, code] at ok
    cases ok
    exact absurd returns goes
  | finish value =>
    simp only [execute, code] at ok
    simp only [System.publishes, code] at publishes
    cases ok
    cases publishes
    have same := List.append_cancel_left returns
    cases same
    exact ⟨rfl, rfl⟩
  | emit k row rest conflict =>
    simp only [execute, code] at ok
    split at ok
    · split at ok <;> cases ok <;> exact absurd returns goes
    · cases ok

end System

end LetAgents.Lib.ReadCommitted
