import LetAgents.Inbox.SafeRetention

/-!
# Stored items are kept

Retention deletes no message that waits for its agent: a row is deleted when a permitted write
has settled it, and otherwise only with its agent.
-/
namespace LetAgents.Inbox.Acceptance

open Lib.Checked Records Retention Pruning Ingress Store Writes Transaction Reachable RowLife
  EffectOwners SafeRetention

/-- The item is stored after a permitted write, or such a write has settled it. -/
def Kept (db : Database) (op : Op) (item : SupervisedInboxItem) (d : Database) : Prop :=
  ∃ row, RowStep db op item row ∧ (row ∈ d.inbox ∨ row.state.isFinal = true)

theorem executes_kept (sound : Sound db) (columns : ∀ row ∈ db.inbox, TurnBinding.TurnColumns row)
    (executes : Executes db op d) (keeps : isPurge op = false) (member : item ∈ db.inbox) :
    Kept db op item d := by
  have same : Kept db op item db := ⟨item, RowStep.refl _ _ _, .inl member⟩
  induction executes with
  | start | drain | external => exact same
  | admitted fresh =>
    obtain ⟨rfl, _⟩ := issue_ok fresh
    exact same
  | row rest known write ih =>
    rename_i d other written
    obtain ⟨row, stepped, stored | final⟩ := ih
    · by_cases named : row.inboxItemId = written.inboxItemId
      · have ids : item.inboxItemId = other.inboxItemId :=
          (congrArg Receipt.inboxItemId (RowStep.receipt_eq stepped)).symm.trans
            (named.trans (congrArg Receipt.inboxItemId (RowWrite.receipt_eq write)))
        cases sound.ids.eq member known ids
        exact ⟨written, ⟨written, .inr write, .refl _⟩, .inl (Lib.Table.put_mem stored named)⟩
      · exact ⟨row, stepped, .inl (Lib.Table.mem_put_of_ne stored named)⟩
    · exact ⟨row, stepped, .inr final⟩
  | @rows f writes =>
    exact ⟨f item, ⟨f item, writes item member, .refl _⟩, .inl (List.mem_map_of_mem member)⟩
  | insert rest fresh fifo new ih =>
    obtain ⟨row, stepped, stored⟩ := ih
    exact ⟨row, stepped, stored.imp_left (List.mem_append_left _)⟩
  | settle rest known ih =>
    rename_i d other now
    obtain ⟨f, _, equal⟩ := settle_eq d other now
    rw [equal]
    exact ih
  | prune rest pruned ih =>
    obtain ⟨row, stepped, stored | final⟩ := ih
    · cases settled : row.state.isFinal with
      | true => exact ⟨row, stepped, .inr settled⟩
      | false =>
        have before := executes_columns sound columns rest
        have kept := (prune_pruned (executes_follows sound rest).sound before pruned).kept
        obtain ⟨after, there, trims⟩ := kept row stored (.inl settled)
        exact ⟨after, RowStep.trims stepped trims, .inl there⟩
    · exact ⟨row, stepped, .inr final⟩
  | remove call removed => cases call ▸ keeps
  | issue rest fresh ih =>
    obtain ⟨rfl, _⟩ := issue_ok fresh
    exact ih
  | ingress _ _ ih | observe _ ih | repair _ ih | effects _ _ ih | tombstones _ _ ih
  | moves _ _ ih => exact ih

theorem run_kept (host : Host) (op : Op) (keeps : isPurge op = false)
    (member : item ∈ (run host log).inbox) :
    Kept (run host log) op item (run host (log ++ [op])) := by
  unfold run
  rw [Lib.Replay.replay_concat]
  cases result : step (Lib.Replay.replay step (Database.initial host) log) op with
  | ok next =>
    rw [Lib.Replay.attempt_of_ok result]
    exact executes_kept (sound_run host log) (TurnBinding.turn_columns host log)
      (step_executes (sound_run host log) result) keeps member
  | error e =>
    rw [Lib.Replay.attempt_of_error result]
    exact ⟨item, RowStep.refl _ _ _, .inl member⟩

/-- Some operation of the run settles the item. -/
def Settles (host : Host) (log : List Op) (r : Receipt) : Prop :=
  ∃ before op after, log = before ++ op :: after ∧ ∃ item ∈ (run host before).inbox,
    receipt item = r ∧ ∃ row, RowStep (run host before) op item row ∧ row.state.isFinal = true

/-- A message comes in with a poll. -/
def polled : List Op :=
  [.commitPollIngestion ⟨"agent", "room", some "msg_1", none,
    [⟨"msg_1", .object [], .object [], "item"⟩], none, none⟩]

end LetAgents.Inbox.Acceptance
