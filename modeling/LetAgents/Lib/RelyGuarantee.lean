import Mathlib.Data.List.Nodup
import LetAgents.Lib.ReadCommitted

/-!
# Rely and guarantee for transactions

A discipline states what a call may make of a row, what holds of every committed
store, and what each publication promises. An outline annotates a program with what
its thread knows between two statements, where only the publications of other
threads can change it. When every program has an outline, every run keeps the
discipline: no transaction changes a row that another has written or locked, so a
publication finds the rows its outline speaks of.
-/
namespace LetAgents.Lib.ReadCommitted

variable {K : Type} {V : K → Type} {L N R C : Type}

/-- No two rows of the view are set against each other by a unique index. -/
def System.Consistent (sys : System V C L N R) (rows : Rows V) : Prop :=
  ∀ ⦃k k' v v'⦄, k ≠ k' → rows k = some v → rows k' = some v' → sys.clash k v k' v' = false

structure Discipline (sys : System V C L N R) where
  /-- what a call may make of a row -/
  law : C → ∀ k, V k → V k → Prop
  /-- the rows that a call may add -/
  born : C → ∀ k, V k → Prop
  invariant : Rows V → Prop
  guarantee : Publication V C L N R → Prop
  /-- the condition on a publication under which runs are considered -/
  meets : Publication V C L N R → Prop
  /-- the same with regard to another call in flight -/
  apart : Publication V C L N R → C → N → Prop
  law_trans : ∀ {c k v v' v''}, law c k v v' → law c k v' v'' → law c k v v''
  born_law : ∀ {c k v v'}, born c k v → law c k v v' → born c k v'
  clash_symm : ∀ {k v k' v'}, sys.clash k v k' v' = sys.clash k' v' k v
  /-- an update enters no unique index -/
  shrinks : ∀ {c k v v' k' x}, law c k v v' → sys.clash k v' k' x = true →
    sys.clash k v k' x = true

variable {c : C} {rows base : Rows V} {k : K} {A : Footing V L → Prop}
  {next : Seen V → Program V L N R} {conflict rest : Program V L N R} {result : R}
  {p : Publication V C L N R} {keys : List K} {other : Thread V C L N R}

namespace Discipline

variable {sys : System V C L N R} (d : Discipline sys)

/-- The versions of a call keep its laws. -/
def Lawful (c : C) (rows base : Rows V) : Prop :=
  ∀ ⦃k v'⦄, rows k = some v' →
    (∃ v, base k = some v ∧ d.law c k v v') ∨ base k = none ∧ d.born c k v'

variable {d} in
/-- The law on a row that was there. -/
theorem Lawful.of_base (lawful : d.Lawful c rows base) (was : base k = some v)
    (is : rows k = some v') : d.law c k v v' := by
  rcases lawful is with ⟨older, has, law⟩ | ⟨absent, _⟩
  · rw [was] at has
    cases has
    exact law
  · rw [was] at absent
    cases absent

variable {d} in
theorem Lawful.mono (lawful : d.Lawful c written base) (seen : written.over base k = some v)
    (law : d.law c k v v') :
    (∃ v, base k = some v ∧ d.law c k v v') ∨ base k = none ∧ d.born c k v' := by
  rcases Rows.over_eq_some seen with own | ⟨_, under⟩
  · rcases lawful own with ⟨older, has, before⟩ | ⟨absent, born⟩
    · exact .inl ⟨older, has, d.law_trans before law⟩
    · exact .inr ⟨absent, d.born_law born law⟩
  · exact .inl ⟨v, under, law⟩

/-- What holds of the footing of every call in flight. -/
structure Proper (c : C) (f : Footing V L) : Prop where
  base : sys.Consistent f.base
  view : sys.Consistent f.view
  lawful : d.Lawful c f.written f.base
  invariant : d.invariant f.base

/-- A publication of another call, as far as a thread on the footing is concerned. -/
structure Elsewhere (f : Footing V L) (p : Publication V C L N R) : Prop where
  base : p.footing.base = f.base
  rows : ∀ ⦃k v⦄, p.rows k = some v → f.written k = none ∧ k ∉ f.shared
  held : ∀ key ∈ p.footing.held, key ∉ f.held
  proper : d.Proper p.call p.footing
  lawful : d.Lawful p.call p.rows p.footing.base
  meets : d.meets p
  guarantee : d.guarantee p

/-- Knowledge that no allowed publication of another call takes away. -/
def Stable (c : C) (n : N) (A : Footing V L → Prop) : Prop :=
  ∀ ⦃f p⦄, A f → d.Proper c f → d.Elsewhere f p → d.apart p c n →
    A (f.under (p.rows.over f.base))

theorem stable_true (c : C) (n : N) : d.Stable c n fun _ => True := fun _ _ _ _ _ _ => trivial

theorem stable_idle (c : C) (n : N) : d.Stable c n Footing.Idle := fun _ _ idle _ _ _ => idle

variable {d} in
theorem Stable.and (first : d.Stable c n A) (second : d.Stable c n B) :
    d.Stable c n fun f => A f ∧ B f :=
  fun _ _ both proper elsewhere apart =>
    ⟨first both.1 proper elsewhere apart, second both.2 proper elsewhere apart⟩

/-- The keys of a view are listed, each once. -/
def Lists (rows : Rows V) (keys : List K) : Prop := (∀ k, rows k ≠ none → k ∈ keys) ∧ keys.Nodup

variable [DecidableEq K]

/-- The program keeps the discipline when it goes on from the knowledge. -/
def Outline (c : C) : Program V L N R → N → (Footing V L → Prop) → Prop
  | .note learned next, _, A => Outline c next learned A
  | .lock key next, n, A =>
    d.Stable c n A ∧ ∃ B : Footing V L → Prop,
      (∀ f, A f → d.Proper c f → B (f.hold key)) ∧ Outline c next n B
  | .select next, n, A =>
    d.Stable c n A ∧ ∀ f keys, A f → d.Proper c f → Lists f.view keys →
      ∃ B : Footing V L → Prop, B f ∧ Outline c (next ⟨f.view, keys⟩) n B
  | .share target next, n, A =>
    d.Stable c n A ∧ ∀ f keys, A f → d.Proper c f → Lists f.view keys →
      ∃ B : Footing V L → Prop, B (f.share (targeted target ⟨f.view, keys⟩)) ∧
        Outline c (next ⟨f.view, keys⟩) n B
  | .update change next, n, A =>
    d.Stable c n A ∧ ∀ f keys, A f → d.Proper c f → Lists f.view keys →
      (∀ k v v', f.view k = some v → change k v = some v' → d.law c k v v') ∧
      ∃ B : Footing V L → Prop, B (f.write (revised change f.view)) ∧
        Outline c (next ⟨(f.write (revised change f.view)).view, keys⟩
          (chosen change ⟨f.view, keys⟩)) n B
  | .insert k row next conflict, n, A =>
    d.Stable c n A ∧ ∀ f keys, A f → d.Proper c f → Lists f.view keys →
      (sys.Vacant ⟨f.view, keys⟩ k row → d.born c k row ∧
        ∃ B : Footing V L → Prop, B (f.write (Rows.single k row)) ∧ Outline c next n B) ∧
      (¬sys.Vacant ⟨f.view, keys⟩ k row →
        ∃ B : Footing V L → Prop, B f ∧ Outline c conflict n B)
  | .emit k row next conflict, n, A =>
    d.Stable c n A ∧ ∀ f keys, A f → d.Proper c f → Lists f.base keys →
      (sys.Vacant ⟨f.base, keys⟩ k row → d.born c k row ∧
        let p : Publication V C L N R :=
          ⟨c, n, f, Rows.single k row, some (next.settle n).1, none⟩
        (d.meets p → d.guarantee p ∧ d.invariant ((Rows.single k row).over f.base) ∧
          ∃ B : Footing V L → Prop, B (f.under ((Rows.single k row).over f.base)) ∧
            Outline c next n B)) ∧
      (¬sys.Vacant ⟨f.base, keys⟩ k row →
        ∃ B : Footing V L → Prop, B f ∧ Outline c conflict n B)
  | .commit next, n, A =>
    d.Stable c n A ∧ ∀ f, A f → d.Proper c f →
      let p : Publication V C L N R := ⟨c, n, f, f.written, some (next.settle n).1, none⟩
      d.meets p → d.guarantee p ∧ d.invariant f.view ∧
        ∃ B : Footing V L → Prop, B f.committed ∧ Outline c next n B
  | .finish result, n, A =>
    d.Stable c n A ∧ ∀ f, A f → d.Proper c f →
      let p : Publication V C L N R := ⟨c, n, f, f.written, none, some result⟩
      d.meets p → d.guarantee p ∧ d.invariant f.view
  | .abort _, _, _ => True

variable {d}

section Rules

variable {c : C} {n : N} {A B : Footing V L → Prop}

section

variable (stable : d.Stable c n A)
include stable

theorem Outline.lock {next : Program V L N R} (taken : ∀ f, A f → B (f.hold key))
    (rest : d.Outline c next n B) : d.Outline c (.lock key next) n A :=
  ⟨stable, B, fun f here _ => taken f here, rest⟩

theorem Outline.select
    (rest : ∀ f keys, A f → d.Proper c f → Lists f.view keys → ∃ B : Footing V L → Prop, B f ∧ d.Outline c (next ⟨f.view, keys⟩) n B) :
    d.Outline c (.select next) n A :=
  ⟨stable, rest⟩

/-- A read after which nothing more is known of the store. -/
theorem Outline.glance (rest : ∀ seen, d.Outline c (next seen) n A) :
    d.Outline c (.select next) n A :=
  ⟨stable, fun _ _ here _ _ => ⟨A, here, rest _⟩⟩

/-- A read that adds to what is known. -/
theorem Outline.learn
    (rest : ∀ f keys, A f → d.Proper c f → Lists f.view keys → ∃ B : Footing V L → Prop, B f ∧ d.Outline c (next ⟨f.view, keys⟩) n fun f => A f ∧ B f) :
    d.Outline c (.select next) n A := by
  refine ⟨stable, fun f keys here proper lists => ?_⟩
  obtain ⟨B, learned, outline⟩ := rest f keys here proper lists
  exact ⟨_, ⟨here, learned⟩, outline⟩

theorem Outline.share
    (rest : ∀ f keys, A f → d.Proper c f → Lists f.view keys → ∃ B : Footing V L → Prop, B (f.share (targeted target ⟨f.view, keys⟩)) ∧ d.Outline c (next ⟨f.view, keys⟩) n B) :
    d.Outline c (.share target next) n A :=
  ⟨stable, rest⟩

theorem Outline.update {next : Seen V → List K → Program V L N R}
    (lawful : ∀ f, A f → d.Proper c f → ∀ k v v', f.view k = some v → change k v = some v' → d.law c k v v')
    (rest : ∀ f keys, A f → d.Proper c f → Lists f.view keys → ∃ B : Footing V L → Prop, B (f.write (revised change f.view)) ∧ d.Outline c (next ⟨(f.write (revised change f.view)).view, keys⟩ (chosen change ⟨f.view, keys⟩)) n B) :
    d.Outline c (.update change next) n A :=
  ⟨stable, fun f keys here proper lists => ⟨lawful f here proper, rest f keys here proper lists⟩⟩

theorem Outline.insert {next : Program V L N R} (born : d.born c k row)
    (rest : ∀ f keys, A f → d.Proper c f → Lists f.view keys → sys.Vacant ⟨f.view, keys⟩ k row → ∃ B : Footing V L → Prop, B (f.write (Rows.single k row)) ∧ d.Outline c next n B)
    (otherwise : ∀ f keys, A f → d.Proper c f → Lists f.view keys → ¬sys.Vacant ⟨f.view, keys⟩ k row → ∃ B : Footing V L → Prop, B f ∧ d.Outline c conflict n B) :
    d.Outline c (.insert k row next conflict) n A :=
  ⟨stable, fun f keys here proper lists =>
    ⟨fun vacant => ⟨born, rest f keys here proper lists vacant⟩,
      otherwise f keys here proper lists⟩⟩

theorem Outline.commit {next : Program V L N R}
    (publish : ∀ f, A f → d.Proper c f → d.meets ⟨c, n, f, f.written, some (next.settle n).1, none⟩ → d.guarantee ⟨c, n, f, f.written, some (next.settle n).1, none⟩ ∧ d.invariant f.view ∧ ∃ B : Footing V L → Prop, B f.committed ∧ d.Outline c next n B) :
    d.Outline c (.commit next) n A :=
  ⟨stable, publish⟩

theorem Outline.finish
    (publish : ∀ f, A f → d.Proper c f → d.meets ⟨c, n, f, f.written, none, some result⟩ → d.guarantee ⟨c, n, f, f.written, none, some result⟩ ∧ d.invariant f.view) :
    d.Outline c (.finish result) n A :=
  ⟨stable, publish⟩

end

theorem Outline.abort : d.Outline c (.abort result) n A := trivial

/-- Stronger knowledge will do, when the others leave it. -/
theorem Outline.weaken (outline : d.Outline c program n B)
    (settled : ∀ learned next, program ≠ .note learned next) (stable : d.Stable c n A)
    (weaker : ∀ f, A f → B f) : d.Outline c program n A := by
  cases program with
  | note learned next => exact absurd rfl (settled learned next)
  | lock key next =>
    obtain ⟨_, C, taken, rest⟩ := outline
    exact ⟨stable, C, fun f here => taken f (weaker f here), rest⟩
  | finish | commit => exact ⟨stable, fun f here => outline.2 f (weaker f here)⟩
  | select | share | update | insert | emit =>
    exact ⟨stable, fun f keys here => outline.2 f keys (weaker f here)⟩
  | abort => trivial

/-- A call begins with nothing written or locked. -/
theorem Outline.of_idle (outline : d.Outline c program n A)
    (starts : ∀ f : Footing V L, f.Idle → A f) : d.Outline c program n Footing.Idle := by
  induction program generalizing n with
  | note learned next ih => exact ih outline
  | lock | select | share | update | insert | emit | commit | finish | abort =>
    exact outline.weaken nofun (d.stable_idle c n) starts

end Rules

/-- Notes at the head of a program only move the annotation. -/
theorem outline_settle (rest : Program V L N R) (n : N) :
    d.Outline c (rest.settle n).2 (rest.settle n).1 A ↔ d.Outline c rest n A := by
  induction rest generalizing n with
  | note learned next ih => exact ih learned
  | lock | select | share | update | insert | emit | commit | finish | abort => rfl

/-- What a thread knows outlasts the publications of the others. -/
theorem Outline.interfered (outline : d.Outline c rest n A) (here : A f)
    (settled : ∀ learned next, rest ≠ .note learned next) (proper : d.Proper c f)
    (elsewhere : d.Elsewhere f p) (apart : d.apart p c n) :
    ∃ B : Footing V L → Prop, B (f.under (p.rows.over f.base)) ∧ d.Outline c rest n B := by
  cases rest with
  | note learned next => exact absurd rfl (settled learned next)
  | abort result => exact ⟨fun _ => True, trivial, trivial⟩
  | lock | select | share | update | insert | emit | commit | finish =>
    exact ⟨A, outline.1 here proper elsewhere apart, outline⟩

end Discipline

/-! ## Soundness -/

/-- Two calls in flight exclude each other from what they have written and locked. -/
structure System.Apart (sys : System V C L N R) (a b : Thread V C L N R) : Prop where
  held : ∀ key ∈ a.held, key ∉ b.held
  rows : ∀ ⦃k v⦄, a.written k = some v → b.written k = none ∧ k ∉ b.shared
  clash : ∀ ⦃k v k' v'⦄, a.written k = some v → b.written k' = some v' →
    sys.clash k v k' v' = false

/-- What holds of one call in flight. -/
structure Discipline.Sane {sys : System V C L N R} [DecidableEq K] (d : Discipline sys)
    (base : Rows V) (keys : List K) (thread : Thread V C L N R) : Prop where
  listed : ∀ ⦃k v⦄, thread.written k = some v → k ∈ keys
  view : sys.Consistent (thread.view base)
  lawful : d.Lawful thread.call thread.written base
  settled : ∀ learned next, thread.rest ≠ .note learned next
  outline : ∃ A : Footing V L → Prop,
    A (thread.footing base) ∧ d.Outline thread.call thread.rest thread.note A

structure Discipline.Inv {sys : System V C L N R} [DecidableEq K] (d : Discipline sys)
    (s : State V C L N R) : Prop where
  lists : Lists s.base s.keys
  base : sys.Consistent s.base
  invariant : d.invariant s.base
  sane : ∀ ⦃i : Nat⦄ ⦃a⦄, s.pool[i]? = some (some a) → d.Sane s.base s.keys a
  apart : ∀ ⦃i j : Nat⦄ ⦃a b⦄, i ≠ j → s.pool[i]? = some (some a) → s.pool[j]? = some (some b) →
    sys.Apart a b

namespace State

variable {s : State V C L N R} {i : Nat} {thread : Thread V C L N R}

theorem mem_others : thread ∈ s.others i ↔ ∃ j : Nat, j ≠ i ∧ s.pool[j]? = some (some thread) := by
  rw [others, List.reduceOption_mem_iff, List.mem_eraseIdx_iff_getElem?]

theorem mem_pool : thread ∈ s.pool.reduceOption ↔ ∃ j : Nat, s.pool[j]? = some (some thread) := by
  rw [List.reduceOption_mem_iff, List.mem_iff_getElem?]

theorem of_join (found : s.pool[i]?.join = some thread) : s.pool[i]? = some (some thread) := by
  cases at' : s.pool[i]? with
  | none => rw [at'] at found; cases found
  | some entry => rw [at', Option.join_some] at found; rw [found]

end State

theorem Program.settle_ne_note (rest : Program V L N R) (n : N) (learned : N)
    (next : Program V L N R) : (rest.settle n).2 ≠ .note learned next := by
  induction rest generalizing n with
  | note _ _ ih => exact ih _
  | lock | select | share | update | insert | emit | commit | finish | abort => nofun

namespace Discipline

variable [DecidableEq K] {sys : System V C L N R} {d : Discipline sys} {s : State V C L N R}
  {i : Nat} {thread : Thread V C L N R}

theorem Sane.proper (sane : d.Sane base keys thread) (consistent : sys.Consistent base)
    (invariant : d.invariant base) : d.Proper thread.call (thread.footing base) :=
  ⟨consistent, sane.view, sane.lawful, invariant⟩

/-- The keys of a thread's view are those of the store. -/
theorem Sane.lists (sane : d.Sane base keys thread) (lists : Lists base keys) :
    Lists (thread.view base) keys := by
  refine ⟨fun k has => ?_, lists.2⟩
  obtain ⟨row, seen⟩ := Option.ne_none_iff_exists'.mp has
  rcases Rows.over_eq_some seen with own | ⟨_, under⟩
  · exact sane.listed own
  · exact lists.1 k (Option.ne_none_iff_exists'.mpr ⟨row, under⟩)

/-- A step of one thread keeps the invariant when it does so for that thread and
leaves the others sane and apart. -/
theorem Inv.moved (inv : d.Inv s) {next : State V C L N R} (pool : next.pool = s.pool.set i after)
    (lists : Lists next.base next.keys) (base : sys.Consistent next.base)
    (invariant : d.invariant next.base) (own : ∀ a, after = some a → d.Sane next.base next.keys a)
    (others : ∀ b ∈ s.others i, d.Sane s.base s.keys b → d.Sane next.base next.keys b)
    (clear : ∀ a, after = some a → ∀ b ∈ s.others i, sys.Apart a b ∧ sys.Apart b a) :
    d.Inv next := by
  have entry : ∀ ⦃j : Nat⦄ ⦃a⦄, next.pool[j]? = some (some a) →
      j = i ∧ after = some a ∨ j ≠ i ∧ s.pool[j]? = some (some a) := by
    intro j a at'
    rw [pool, List.getElem?_set] at at'
    by_cases same : i = j
    · rw [if_pos same] at at'
      split at at'
      · exact .inl ⟨same.symm, Option.some.inj at'⟩
      · cases at'
    · rw [if_neg same] at at'
      exact .inr ⟨fun here => same here.symm, at'⟩
  refine ⟨lists, base, invariant, fun j a at' => ?_, fun j j' a b apart at' at'' => ?_⟩
  · rcases entry at' with ⟨_, isAfter⟩ | ⟨other, before⟩
    · exact own a isAfter
    · exact others a (State.mem_others.mpr ⟨j, other, before⟩) (inv.sane before)
  · rcases entry at' with ⟨here, isAfter⟩ | ⟨other, before⟩
    · rcases entry at'' with ⟨here', _⟩ | ⟨other', before'⟩
      · exact absurd (here.trans here'.symm) apart
      · exact (clear a isAfter b (State.mem_others.mpr ⟨j', other', before'⟩)).1
    · rcases entry at'' with ⟨_, isAfter'⟩ | ⟨_, before'⟩
      · exact (clear b isAfter' a (State.mem_others.mpr ⟨j, other, before⟩)).2
      · exact inv.apart apart before before'

theorem Inv.apart_of_others (inv : d.Inv s) (at' : s.pool[i]? = some (some thread))
    (member : other ∈ s.others i) : sys.Apart thread other ∧ sys.Apart other thread := by
  obtain ⟨j, apart, there⟩ := State.mem_others.mp member
  exact ⟨inv.apart (Ne.symm apart) at' there, inv.apart apart there at'⟩

/-- Going on changes nothing that keeps two calls apart. -/
theorem Inv.apart_goOn (inv : d.Inv s) (at' : s.pool[i]? = some (some thread))
    (member : other ∈ s.others i) :
    sys.Apart (thread.goOn rest) other ∧ sys.Apart other (thread.goOn rest) := by
  obtain ⟨forth, back⟩ := inv.apart_of_others at' member
  exact ⟨⟨forth.held, forth.rows, forth.clash⟩, back.held, back.rows, back.clash⟩

theorem Inv.sane_of_others (inv : d.Inv s) (member : other ∈ s.others i) :
    d.Sane s.base s.keys other := by
  obtain ⟨_, _, there⟩ := State.mem_others.mp member
  exact inv.sane there

/-- A call that ends without a commit leaves nothing. -/
theorem Inv.dropped (inv : d.Inv s) {next : State V C L N R} (base : next.base = s.base)
    (keys : next.keys = s.keys) (pool : next.pool = s.pool.set i none) : d.Inv next := by
  refine inv.moved pool ?_ ?_ ?_ nofun (fun b _ sane => ?_) nofun
  · rw [base, keys]; exact inv.lists
  · rw [base]; exact inv.base
  · rw [base]; exact inv.invariant
  · rw [base, keys]; exact sane

/-- A thread that goes on keeps what its transaction has written and locked. -/
theorem sane_goOn (listed : ∀ ⦃k v⦄, thread.written k = some v → k ∈ keys)
    (view : sys.Consistent (thread.view base)) (lawful : d.Lawful thread.call thread.written base)
    (outline : ∃ A : Footing V L → Prop, A (thread.footing base) ∧ d.Outline thread.call rest thread.note A) :
    d.Sane base keys (thread.goOn rest) := by
  obtain ⟨A, here, outline⟩ := outline
  exact ⟨listed, view, lawful, Program.settle_ne_note rest _,
    A, here, (outline_settle rest _).mpr outline⟩

/-- A statement that changes no committed row. -/
theorem Inv.stays (inv : d.Inv s) (grows : s.keys ⊆ keys) (nodup : keys.Nodup)
    (sane : d.Sane s.base keys after)
    (clear : ∀ b ∈ s.others i, sys.Apart after b ∧ sys.Apart b after) :
    d.Inv { s.put i after with keys := keys } := by
  refine inv.moved rfl ⟨fun k has => grows (inv.lists.1 k has), nodup⟩ inv.base inv.invariant
    ?_ (fun b _ sane => ?_) ?_
  · rintro a ⟨⟩
    exact sane
  · exact ⟨fun k v has => grows (sane.listed has), sane.view, sane.lawful, sane.settled,
      sane.outline⟩
  · rintro a ⟨⟩
    exact clear

/-- A statement that neither writes nor locks. -/
theorem Inv.goes (inv : d.Inv s) (at' : s.pool[i]? = some (some thread))
    (outline : ∃ A : Footing V L → Prop, A (thread.footing s.base) ∧ d.Outline thread.call rest thread.note A) :
    d.Inv (s.put i (thread.goOn rest)) := by
  have sane := inv.sane at'
  exact inv.stays (List.Subset.refl _) inv.lists.2 (sane_goOn sane.listed sane.view sane.lawful outline)
    fun b member => inv.apart_goOn at' member

/-- A statement that writes rows no other call has written or locked. -/
theorem Inv.wrote (inv : d.Inv s) (at' : s.pool[i]? = some (some thread)) (grows : s.keys ⊆ keys)
    (nodup : keys.Nodup) (listed : ∀ ⦃k v⦄, rows k = some v → k ∈ keys)
    (consistent : sys.Consistent ((rows.over thread.written).over s.base))
    (lawful : d.Lawful thread.call rows s.base)
    (free : ∀ b ∈ s.others i, ∀ ⦃k v⦄, rows k = some v → b.written k = none ∧ k ∉ b.shared)
    (clear : ∀ b ∈ s.others i, ∀ ⦃k v k' v'⦄, rows k = some v → b.written k' = some v' → sys.clash k v k' v' = false)
    (outline : ∃ B : Footing V L → Prop, B ((thread.footing s.base).write rows) ∧
      d.Outline thread.call rest thread.note B) :
    d.Inv { s.put i ({ thread with written := rows.over thread.written }.goOn rest) with
      keys := keys } := by
  have sane := inv.sane at'
  refine inv.stays grows nodup (sane_goOn (fun k v has => ?_) consistent (fun k v has => ?_)
    outline) fun b member => ?_
  · rcases Rows.over_eq_some has with newly | ⟨_, older⟩
    · exact listed newly
    · exact grows (sane.listed older)
  · rcases Rows.over_eq_some has with newly | ⟨_, older⟩
    · exact lawful newly
    · exact sane.lawful older
  · obtain ⟨forth, back⟩ := inv.apart_of_others at' member
    have excluded : ∀ ⦃k v⦄, (rows.over thread.written) k = some v →
        b.written k = none ∧ k ∉ b.shared := by
      intro k v has
      rcases Rows.over_eq_some has with newly | ⟨_, older⟩
      · exact free b member newly
      · exact forth.rows older
    have separate : ∀ ⦃k v k' v'⦄, (rows.over thread.written) k = some v →
        b.written k' = some v' → sys.clash k v k' v' = false := by
      intro k v k' v' has has'
      rcases Rows.over_eq_some has with newly | ⟨_, older⟩
      · exact clear b member newly has'
      · exact forth.clash older has'
    refine ⟨⟨forth.held, excluded, separate⟩, back.held, fun k v has => ⟨?_, (back.rows has).2⟩,
      fun k v k' v' has has' => ?_⟩
    · by_contra written
      obtain ⟨version, has'⟩ := Option.ne_none_iff_exists'.mp written
      rw [(excluded has').1] at has
      cases has
    · rw [d.clash_symm]
      exact separate has' has

omit [DecidableEq K] in
theorem not_clash_of_any {k' : K} {o : Option (V k')} {v : V k'}
    (fits : o.any (sys.clash k row k') = false) (has : o = some v) :
    sys.clash k row k' v = false := by
  rw [has, Option.any_some] at fits
  exact fits

/-- A new row that fits a view is consistent with it. -/
theorem consistent_single (symm : ∀ {k v k' v'}, sys.clash k v k' v' = sys.clash k' v' k v)
    (consistent : sys.Consistent seen.rows) (lists : Lists seen.rows seen.keys)
    (vacant : sys.Vacant seen k row) : sys.Consistent ((Rows.single k row).over seen.rows) := by
  have fits : ∀ {k' v}, seen.rows k' = some v → sys.clash k row k' v = false :=
    fun {k' v} has => not_clash_of_any
      (vacant.2 k' (lists.1 k' (by rw [has]; exact Option.some_ne_none v))) has
  intro a b v v' apart has has'
  rcases Rows.over_eq_some has with newly | ⟨_, older⟩
  · cases Rows.single_eq_some newly
    rw [Rows.over_of_none (Rows.single_ne _ apart.symm)] at has'
    exact fits has'
  · rcases Rows.over_eq_some has' with newly' | ⟨_, older'⟩
    · cases Rows.single_eq_some newly'
      rw [symm]
      exact fits older
    · exact consistent apart older older'

omit [DecidableEq K] in
/-- What a thread sees stays consistent when another one's rows are published. -/
theorem consistent_overlay {b : Thread V C L N R}
    (symm : ∀ {k v k' v'}, sys.clash k v k' v' = sys.clash k' v' k v)
    (consistent : sys.Consistent (rows.over base)) (view : sys.Consistent (b.view base))
    (clear : ∀ ⦃k v k' v'⦄, rows k = some v → b.written k' = some v' → sys.clash k v k' v' = false) :
    sys.Consistent (b.view (rows.over base)) := by
  have against : ∀ {k v k' v'}, k ≠ k' → b.written k = some v → b.written k' = none →
      rows.over base k' = some v' → sys.clash k v k' v' = false := by
    intro k v k' v' apart own absent under
    rcases Rows.over_eq_some under with newly | ⟨_, older⟩
    · rw [symm]
      exact clear newly own
    · exact view apart (Rows.over_of_some own) ((Rows.over_of_none absent).trans older)
  intro k k' v v' apart has has'
  rcases Rows.over_eq_some has with own | ⟨absent, under⟩
  · rcases Rows.over_eq_some has' with own' | ⟨absent', under'⟩
    · exact view apart (Rows.over_of_some own) (Rows.over_of_some own')
    · exact against apart own absent' under'
  · rcases Rows.over_eq_some has' with own' | ⟨_, under'⟩
    · rw [symm]
      exact against apart.symm own' absent under
    · exact consistent apart under under'

/-- A call in flight stays sane when another one's rows are published. -/
theorem Sane.interfered (sane : d.Sane base keys thread) (grows : keys ⊆ keys')
    (consistent : sys.Consistent base) (invariant : d.invariant base)
    (elsewhere : d.Elsewhere (thread.footing base) p) (apart : d.apart p thread.call thread.note)
    (view : sys.Consistent (thread.view (p.rows.over base))) :
    d.Sane (p.rows.over base) keys' thread := by
  obtain ⟨A, here, outline⟩ := sane.outline
  refine ⟨fun k v has => grows (sane.listed has), view, fun k v has => ?_, sane.settled,
    outline.interfered here sane.settled (sane.proper consistent invariant) elsewhere apart⟩
  have unpublished : p.rows k = none := by
    by_contra published
    obtain ⟨version, has'⟩ := Option.ne_none_iff_exists'.mp published
    have absent : thread.written k = none := (elsewhere.rows has').1
    rw [absent] at has
    cases has
  rw [Rows.over_of_none unpublished]
  exact sane.lawful has

/-- A publication keeps the invariant when it does so for the thread that makes it. -/
theorem Inv.publish (inv : d.Inv s) {next : State V C L N R} (pool : next.pool = s.pool.set i after)
    (base : next.base = p.rows.over s.base) (grows : s.keys ⊆ next.keys) (nodup : next.keys.Nodup)
    (listed : ∀ ⦃k v⦄, p.rows k = some v → k ∈ next.keys)
    (consistent : sys.Consistent (p.rows.over s.base))
    (invariant : d.invariant (p.rows.over s.base))
    (own : ∀ a, after = some a → d.Sane (p.rows.over s.base) next.keys a)
    (clear : ∀ a, after = some a → ∀ b ∈ s.others i, sys.Apart a b ∧ sys.Apart b a)
    (elsewhere : ∀ b ∈ s.others i, d.Elsewhere (b.footing s.base) p)
    (separate : ∀ b ∈ s.others i, ∀ ⦃k v k' v'⦄, p.rows k = some v → b.written k' = some v' →
      sys.clash k v k' v' = false)
    (apart : ∀ b ∈ s.others i, d.apart p b.call b.note) : d.Inv next := by
  refine inv.moved pool ⟨fun k has => ?_, nodup⟩ (base ▸ consistent) (base ▸ invariant)
    (base ▸ own) (fun b member sane => ?_) clear
  · obtain ⟨row, found⟩ := Option.ne_none_iff_exists'.mp has
    rw [base] at found
    rcases Rows.over_eq_some found with newly | ⟨_, older⟩
    · exact listed newly
    · exact grows (inv.lists.1 k (by rw [older]; exact Option.some_ne_none row))
  · rw [base]
    exact sane.interfered grows inv.base inv.invariant (elsewhere b member) (apart b member)
      (consistent_overlay d.clash_symm consistent sane.view (separate b member))

/-- What the others know of a commit. -/
theorem Inv.elsewhere (inv : d.Inv s) (at' : s.pool[i]? = some (some thread))
    (call : p.call = thread.call) (footing : p.footing = thread.footing s.base)
    (rows : p.rows = thread.written) (meets : d.meets p) (guarantee : d.guarantee p)
    (member : b ∈ s.others i) : d.Elsewhere (b.footing s.base) p := by
  have sane := inv.sane at'
  obtain ⟨forth, _⟩ := inv.apart_of_others at' member
  refine ⟨by rw [footing]; rfl, fun k v has => ?_, fun key held => ?_, ?_, ?_, meets, guarantee⟩
  · rw [rows] at has
    exact forth.rows has
  · rw [footing] at held
    exact forth.held key held
  · rw [call, footing]
    exact sane.proper inv.base inv.invariant
  · rw [call, rows, footing]
    exact sane.lawful

section Statements

variable [DecidableEq L] {next : State V C L N R}

/-- What the next step of a thread publishes is considered. -/
def Allows (d : Discipline sys) (s : State V C L N R) (i : Nat) (thread : Thread V C L N R) : Prop :=
  ∀ p, sys.publishes s thread = some p → d.meets p ∧ ∀ b ∈ s.others i, d.apart p b.call b.note

section

variable (inv : d.Inv s) (at' : s.pool[i]? = some (some thread))

include inv at'

theorem Inv.lock (code : thread.rest = .lock key rest) (ok : sys.execute s i thread = some next) :
    d.Inv next := by
  have sane := inv.sane at'
  simp only [System.execute, code] at ok
  split at ok
  · rename_i free
    cases ok
    obtain ⟨A, here, outline⟩ := sane.outline
    rw [code] at outline
    obtain ⟨_, B, established, outline⟩ := outline
    refine inv.stays (List.Subset.refl _) inv.lists.2 (sane_goOn sane.listed sane.view sane.lawful
      ⟨B, established _ here (sane.proper inv.base inv.invariant), outline⟩) fun b member => ?_
    obtain ⟨forth, back⟩ := inv.apart_of_others at' member
    refine ⟨⟨fun key' held => ?_, forth.rows, forth.clash⟩, fun key' held => ?_, back.rows,
      back.clash⟩
    · rcases List.mem_cons.mp held with rfl | older
      · exact free b member
      · exact forth.held key' older
    · refine fun own => ?_
      rcases List.mem_cons.mp own with rfl | older
      · exact free b member held
      · exact back.held key' held older
  · cases ok

theorem Inv.select {rest : Seen V → Program V L N R} (code : thread.rest = .select rest)
    (ok : sys.execute s i thread = some next) : d.Inv next := by
  have sane := inv.sane at'
  simp only [System.execute, code] at ok
  cases ok
  obtain ⟨A, here, outline⟩ := sane.outline
  rw [code] at outline
  obtain ⟨B, there, outline⟩ := outline.2 _ s.keys here (sane.proper inv.base inv.invariant)
    (sane.lists inv.lists)
  exact inv.goes at' ⟨B, there, outline⟩

theorem Inv.share {rest : Seen V → Program V L N R} (code : thread.rest = .share target rest)
    (ok : sys.execute s i thread = some next) : d.Inv next := by
  have sane := inv.sane at'
  simp only [System.execute, code] at ok
  split at ok
  · rename_i free
    cases ok
    obtain ⟨A, here, outline⟩ := sane.outline
    rw [code] at outline
    obtain ⟨B, there, outline⟩ := outline.2 _ s.keys here (sane.proper inv.base inv.invariant)
      (sane.lists inv.lists)
    refine inv.stays (List.Subset.refl _) inv.lists.2
      (sane_goOn sane.listed sane.view sane.lawful ⟨B, there, outline⟩) fun b member => ?_
    obtain ⟨forth, back⟩ := inv.apart_of_others at' member
    refine ⟨⟨forth.held, forth.rows, forth.clash⟩, back.held, fun k v has => ?_, back.clash⟩
    refine ⟨(back.rows has).1, fun shared => ?_⟩
    rcases List.mem_append.mp shared with newly | older
    · rw [free b member k newly] at has
      cases has
    · exact (back.rows has).2 older
  · cases ok

theorem Inv.update {rest : Seen V → List K → Program V L N R} (code : thread.rest = .update change rest)
    (ok : sys.execute s i thread = some next) : d.Inv next := by
  have sane := inv.sane at'
  have lists := sane.lists inv.lists
  simp only [System.execute, code] at ok
  split at ok
  · rename_i free
    cases ok
    obtain ⟨A, here, outline⟩ := sane.outline
    rw [code] at outline
    obtain ⟨law, B, there, outline⟩ := outline.2 _ s.keys here
      (sane.proper inv.base inv.invariant) lists
    have listed : ∀ {k v}, thread.view s.base k = some v → k ∈ s.keys :=
      fun {k v} seen => lists.1 k (by rw [seen]; exact Option.some_ne_none v)
    have picked : ∀ {k v'}, revised change (thread.view s.base) k = some v' →
        k ∈ chosen change ⟨thread.view s.base, s.keys⟩ := by
      intro k v' has
      obtain ⟨v, seen, _⟩ := revised_eq_some has
      exact mem_chosen (listed seen) has
    -- a row of the new view comes from one of the old, with all that is set against it
    have shrinks : ∀ {k v'}, ((revised change (thread.view s.base)).over thread.written).over
        s.base k = some v' → ∀ {k' x}, sys.clash k v' k' x = true →
        ∃ v, thread.view s.base k = some v ∧ sys.clash k v k' x = true := by
      intro k v' has k' x clash
      rw [Rows.over_assoc] at has
      rcases Rows.over_eq_some has with newly | ⟨_, older⟩
      · obtain ⟨v, seen, changed⟩ := revised_eq_some newly
        exact ⟨v, seen, d.shrinks (law k v v' seen changed) clash⟩
      · exact ⟨v', older, clash⟩
    refine inv.wrote at' (List.Subset.refl _) inv.lists.2 (fun k v' has => ?_)
      (fun k k' v v' apart has has' => ?_) (fun k v' has => ?_)
      (fun b member k v has => free b member k (picked has))
      (fun b member k v k' v' has has' => ?_) ⟨B, there, outline⟩
    · obtain ⟨v, seen, _⟩ := revised_eq_some has
      exact listed seen
    · by_contra clash
      obtain ⟨older, seen, clash⟩ := shrinks has (by simpa using clash)
      rw [d.clash_symm] at clash
      obtain ⟨older', seen', clash⟩ := shrinks has' clash
      rw [d.clash_symm, sane.view apart seen seen'] at clash
      cases clash
    · obtain ⟨v, seen, changed⟩ := revised_eq_some has
      exact sane.lawful.mono seen (law k v v' seen changed)
    · by_contra clash
      obtain ⟨older, seen, changed⟩ := revised_eq_some has
      have clash : sys.clash k older k' v' = true :=
        d.shrinks (law k older v seen changed) (by simpa using clash)
      have unwritten := (free b member k (picked has)).1
      rcases Rows.over_eq_some seen with own | ⟨_, under⟩
      · rw [(inv.apart_of_others at' member).1.clash own has'] at clash
        cases clash
      · have apart : k ≠ k' := by
          rintro rfl
          rw [unwritten] at has'
          cases has'
        have beneath : b.view s.base k = some older := (Rows.over_of_none unwritten).trans under
        rw [(inv.sane_of_others member).view apart beneath (Rows.over_of_some has')] at clash
        cases clash
  · cases ok

theorem Inv.insert {row : V k} (code : thread.rest = .insert k row rest conflict)
    (ok : sys.execute s i thread = some next) : d.Inv next := by
  have sane := inv.sane at'
  have lists := sane.lists inv.lists
  simp only [System.execute, code] at ok
  split at ok
  · rename_i clear
    obtain ⟨A, here, outline⟩ := sane.outline
    rw [code] at outline
    obtain ⟨_, outline⟩ := outline
    split at ok
    · rename_i vacant
      cases ok
      obtain ⟨born, B, there, outline⟩ := (outline _ s.keys here
        (sane.proper inv.base inv.invariant) lists).1 vacant
      refine inv.wrote at' (fun _ listed => List.mem_insert_of_mem listed)
        (List.Nodup.insert inv.lists.2) (fun k' v has => ?_) ?_ (fun k' v has => ?_)
        (fun b member k' v has => ?_) (fun b member k' v k'' v' has has' => ?_) ⟨B, there, outline⟩
      · cases Rows.single_eq_some has
        exact List.mem_insert_self
      · rw [Rows.over_assoc]
        exact consistent_single d.clash_symm sane.view lists vacant
      · cases Rows.single_eq_some has
        have absent : thread.view s.base k = none := vacant.1
        rw [Thread.view, Rows.over, Option.or_eq_none_iff] at absent
        exact .inr ⟨absent.2, born⟩
      · cases Rows.single_eq_some has
        exact ⟨(clear b member).1, (clear b member).2.1⟩
      · cases Rows.single_eq_some has
        have written : b.written k'' ≠ none := by rw [has']; exact Option.some_ne_none v'
        exact not_clash_of_any ((clear b member).2.2 k''
          ((inv.sane_of_others member).listed has') written).1 has'
    · rename_i occupied
      cases ok
      obtain ⟨B, there, outline⟩ := (outline _ s.keys here
        (sane.proper inv.base inv.invariant) lists).2 occupied
      exact inv.goes at' ⟨B, there, outline⟩
  · cases ok

theorem Inv.commit (code : thread.rest = .commit rest) (ok : sys.execute s i thread = some next)
    (allows : d.Allows s i thread) : d.Inv next := by
  have sane := inv.sane at'
  simp only [System.execute, code] at ok
  cases ok
  obtain ⟨meets, apart⟩ := allows _ (by simp only [System.publishes, code]; rfl)
  obtain ⟨A, here, outline⟩ := sane.outline
  rw [code] at outline
  obtain ⟨guarantee, invariant, B, there, outline⟩ := outline.2 _ here
    (sane.proper inv.base inv.invariant) meets
  refine inv.publish
    (p := ⟨thread.call, thread.note, thread.footing s.base, thread.written, _, none⟩) rfl rfl
    (List.Subset.refl _) inv.lists.2 sane.listed sane.view invariant ?_ ?_
      (fun b member => inv.elsewhere at' rfl rfl rfl meets guarantee member)
    (fun b member => (inv.apart_of_others at' member).1.clash) apart
  · rintro a ⟨⟩
    exact sane_goOn (by rintro _ _ ⟨⟩) sane.view (by rintro _ _ ⟨⟩) ⟨B, there, outline⟩
  · rintro a ⟨⟩ b member
    refine ⟨⟨?_, ?_, ?_⟩, ?_, fun k v _ => ⟨rfl, List.not_mem_nil⟩, ?_⟩
    · rintro _ ⟨⟩
    · rintro _ _ ⟨⟩
    · rintro _ _ _ _ ⟨⟩
    · exact fun _ _ => List.not_mem_nil
    · rintro _ _ _ _ _ ⟨⟩

theorem Inv.finish (code : thread.rest = .finish result) (ok : sys.execute s i thread = some next)
    (allows : d.Allows s i thread) : d.Inv next := by
  have sane := inv.sane at'
  simp only [System.execute, code] at ok
  cases ok
  obtain ⟨meets, apart⟩ := allows _ (by simp only [System.publishes, code]; rfl)
  obtain ⟨A, here, outline⟩ := sane.outline
  rw [code] at outline
  obtain ⟨guarantee, invariant⟩ := outline.2 _ here (sane.proper inv.base inv.invariant) meets
  exact inv.publish
    (p := ⟨thread.call, thread.note, thread.footing s.base, thread.written, none, some result⟩)
    rfl rfl (List.Subset.refl _) inv.lists.2 sane.listed sane.view invariant (by rintro _ ⟨⟩) (by rintro _ ⟨⟩)
    (fun b member => inv.elsewhere at' rfl rfl rfl meets guarantee member)
    (fun b member => (inv.apart_of_others at' member).1.clash) apart

theorem Inv.emit (code : thread.rest = .emit k row rest conflict)
    (ok : sys.execute s i thread = some next) (allows : d.Allows s i thread) : d.Inv next := by
  have sane := inv.sane at'
  simp only [System.execute, code] at ok
  split at ok
  · rename_i clear
    obtain ⟨A, here, outline⟩ := sane.outline
    rw [code] at outline
    obtain ⟨_, outline⟩ := outline
    split at ok
    · rename_i vacant
      cases ok
      obtain ⟨meets, apart⟩ := allows _ (by simp only [System.publishes, code]; exact if_pos ⟨clear, vacant⟩)
      obtain ⟨born, promised⟩ := (outline _ s.keys here
        (sane.proper inv.base inv.invariant) inv.lists).1 vacant
      obtain ⟨guarantee, invariant, B, there, outline⟩ := promised meets
      have within : ∀ {b : Thread V C L N R}, b ∈ s.others i → b ∈ s.pool.reduceOption := by
        intro b member
        obtain ⟨j, _, there⟩ := State.mem_others.mp member
        exact State.mem_pool.mpr ⟨j, there⟩
      have itself : thread ∈ s.pool.reduceOption := State.mem_pool.mpr ⟨i, at'⟩
      have separate : ∀ b ∈ s.pool.reduceOption, d.Sane s.base s.keys b →
          ∀ ⦃k' v k'' v'⦄, Rows.single k row k' = some v → b.written k'' = some v' →
            sys.clash k' v k'' v' = false := by
        intro b member sane k' v k'' v' has has'
        cases Rows.single_eq_some has
        have written : b.written k'' ≠ none := by rw [has']; exact Option.some_ne_none v'
        exact not_clash_of_any ((clear b member).2.2 k'' (sane.listed has') written).1 has'
      have absent : s.base k = none := vacant.1
      have lawful : d.Lawful thread.call (Rows.single k row) s.base := by
        intro k' v has
        cases Rows.single_eq_some has
        exact .inr ⟨absent, born⟩
      have consistent : sys.Consistent ((Rows.single k row).over s.base) := by
        refine consistent_single d.clash_symm ?_ ?_ vacant
        · exact inv.base
        · exact inv.lists
      refine inv.publish
        (p := ⟨thread.call, thread.note, thread.footing s.base, Rows.single k row, _, none⟩) rfl
        rfl (fun _ listed => List.mem_insert_of_mem listed) (List.Nodup.insert inv.lists.2)
        (fun k' v has => ?_) consistent invariant ?_ ?_ (fun b member => ?_)
        (fun b member => separate b (within member) (inv.sane_of_others member)) apart
      · cases Rows.single_eq_some has
        exact List.mem_insert_self
      · rintro a ⟨⟩
        refine sane_goOn (fun k' v has => List.mem_insert_of_mem (sane.listed has))
          (consistent_overlay d.clash_symm consistent sane.view (separate thread itself sane))
          (fun k' v has => ?_) ⟨B, there, outline⟩
        have apart' : k' ≠ k := by
          rintro rfl
          rw [(clear thread itself).1] at has
          cases has
        rw [Rows.over_of_none (Rows.single_ne row apart')]
        exact sane.lawful has
      · rintro a ⟨⟩ b member
        exact inv.apart_goOn at' member
      · obtain ⟨forth, _⟩ := inv.apart_of_others at' member
        refine ⟨rfl, fun k' v has => ?_, forth.held, sane.proper inv.base inv.invariant, lawful,
          meets, guarantee⟩
        cases Rows.single_eq_some has
        exact ⟨(clear b (within member)).1, (clear b (within member)).2.1⟩
    · rename_i occupied
      cases ok
      obtain ⟨B, there, outline⟩ := (outline _ s.keys here
        (sane.proper inv.base inv.invariant) inv.lists).2 occupied
      exact inv.goes at' ⟨B, there, outline⟩
  · cases ok

/-- One step of a call in flight. -/
theorem Inv.execute (ok : sys.execute s i thread = some next) (allows : d.Allows s i thread) : d.Inv next := by
  cases code : thread.rest with
  | note learned rest => exact absurd code ((inv.sane at').settled learned rest)
  | lock => exact inv.lock at' code ok
  | select => exact inv.select at' code ok
  | share => exact inv.share at' code ok
  | update => exact inv.update at' code ok
  | insert => exact inv.insert at' code ok
  | emit => exact inv.emit at' code ok allows
  | commit => exact inv.commit at' code ok allows
  | finish => exact inv.finish at' code ok allows
  | abort result =>
    simp only [System.execute, code] at ok
    cases ok
    exact inv.dropped rfl rfl rfl

end

/-- Every call's program has an outline. -/
def Outlined (d : Discipline sys) : Prop :=
  ∀ c, d.Outline c (sys.program c) sys.fresh Footing.Idle

omit [DecidableEq L] in
theorem Inv.start (inv : d.Inv s) (outlined : d.Outlined) (call : C) :
    d.Inv { s with pool := s.pool ++ [some (sys.started call)] } := by
  have entry : ∀ ⦃j : Nat⦄ ⦃a⦄, (s.pool ++ [some (sys.started call)])[j]? = some (some a) →
      s.pool[j]? = some (some a) ∨ j = s.pool.length ∧ a = sys.started call := by
    intro j a at'
    rcases Nat.lt_or_ge j s.pool.length with within | beyond
    · exact .inl (by rwa [List.getElem?_append_left within] at at')
    · rw [List.getElem?_append_right beyond, List.getElem?_singleton] at at'
      split at at'
      · cases at'
        exact .inr ⟨by omega, rfl⟩
      · cases at'
  refine ⟨inv.lists, inv.base, inv.invariant, fun j a at' => ?_, fun j j' a b apart at' at'' => ?_⟩
  · rcases entry at' with before | ⟨_, rfl⟩
    · exact inv.sane before
    · exact ⟨nofun, inv.base, nofun, Program.settle_ne_note _ _, Footing.Idle,
        ⟨fun _ => rfl, rfl, rfl⟩, (outline_settle _ _).mpr (outlined call)⟩
  · rcases entry at' with before | ⟨here, rfl⟩
    · rcases entry at'' with before' | ⟨_, rfl⟩
      · exact inv.apart apart before before'
      · exact ⟨nofun, fun _ _ _ => ⟨rfl, nofun⟩, nofun⟩
    · rcases entry at'' with _ | ⟨here', rfl⟩
      · exact ⟨nofun, nofun, nofun⟩
      · exact absurd (here.trans here'.symm) apart

/-- A store without calls in flight, from which runs begin. -/
structure Clean (d : Discipline sys) (s : State V C L N R) : Prop where
  lists : Lists s.base s.keys
  base : sys.Consistent s.base
  invariant : d.invariant s.base
  pool : s.pool = []

omit [DecidableEq L] in
theorem Clean.inv (clean : d.Clean s) : d.Inv s := by
  refine ⟨clean.lists, clean.base, clean.invariant, fun i a at' => ?_, fun i j a b _ at' _ => ?_⟩
  · rw [clean.pool] at at'
    cases at'
  · rw [clean.pool] at at'
    cases at'

/-- The allowed publications meet the condition of the discipline. -/
def Admits (d : Discipline sys) (allowed : State V C L N R → Action C → Prop) : Prop :=
  ∀ ⦃s i p⦄, allowed s (.run i) → sys.publication s i = some p →
    d.meets p ∧ ∀ b ∈ s.others i, d.apart p b.call b.note

theorem Inv.step (inv : d.Inv s) (outlined : d.Outlined) (admits : d.Admits allowed)
    (allows : allowed s action) (ok : sys.step s action = some next) : d.Inv next := by
  cases action with
  | start call =>
    cases ok
    exact inv.start outlined call
  | run i =>
    obtain ⟨thread, found, ok⟩ := Option.bind_eq_some_iff.mp ok
    refine inv.execute (State.of_join found) ok fun p publishes => admits allows ?_
    exact Option.bind_eq_some_iff.mpr ⟨thread, found, publishes⟩
  | fail i =>
    obtain ⟨_, _, rfl⟩ := Option.map_eq_some_iff.mp ok
    exact inv.dropped rfl rfl rfl

/-- What is known of a publication that meets the condition. -/
structure Promised (d : Discipline sys) (s : State V C L N R) (p : Publication V C L N R) :
    Prop where
  base : p.footing.base = s.base
  proper : d.Proper p.call p.footing
  lawful : d.Lawful p.call p.rows p.footing.base
  guarantee : d.guarantee p

omit [DecidableEq L] in
theorem Inv.published (inv : d.Inv s) (publishes : sys.publication s i = some p)
    (meets : d.meets p) : d.Promised s p := by
  obtain ⟨thread, found, publishes⟩ := Option.bind_eq_some_iff.mp publishes
  have sane := inv.sane (State.of_join found)
  have proper := sane.proper inv.base inv.invariant
  obtain ⟨A, here, outline⟩ := sane.outline
  cases code : thread.rest with
  | note learned rest => exact absurd code (sane.settled learned rest)
  | lock | select | share | update | insert | abort =>
    simp only [System.publishes, code] at publishes
    cases publishes
  | commit rest | finish result =>
    simp only [System.publishes, code] at publishes
    cases publishes
    rw [code] at outline
    exact ⟨rfl, proper, sane.lawful, (outline.2 _ here proper meets).1⟩
  | emit k row rest conflict =>
    simp only [System.publishes, code] at publishes
    split at publishes
    · rename_i admitted
      cases publishes
      rw [code] at outline
      obtain ⟨born, promised⟩ := (outline.2 _ s.keys here proper inv.lists).1 admitted.2
      refine ⟨rfl, proper, fun k' v has => ?_, (promised meets).1⟩
      cases Rows.single_eq_some has
      exact .inr ⟨admitted.2.1, born⟩
    · cases publishes

end Statements

end Discipline

end LetAgents.Lib.ReadCommitted
