import LetAgents.Inbox.Ingress

/-!
# Publication identities

Source: shared/message-contracts.mjs:8-16, 111-120; the ids of a row are those of `newItem`.

The ids join the agent, the room and the source message of a row with `:`. They are told apart
and read back exactly where no agent id and no room id has a `:` of its own: the source
message is joined last, so what it contains does no harm.
-/
namespace LetAgents.Inbox.PublicationIds

open Lib.Js Records Ingress

def POSTGRES_INTEGER_MAX : Nat := 2147483647

/-- `parsePositivePgIntegerScopedId`. -/
def parseScopedId (value idPrefix : String) : Option Nat :=
  if (idPrefix ++ "_").toList.isPrefixOf value.toList then
    let digits := value.toList.drop (idPrefix ++ "_").length
    if digits.head? = some '0' then none
    else (decimal digits).filter (· ≤ POSTGRES_INTEGER_MAX)
  else none

/-- `text.split(":")`. -/
def split (text : String) : List (List Char) := text.toList.splitOn ':'

def parseSupervisedReplySourceNumber (clientMessageId : Option String) : Option Nat :=
  (clientMessageId.filter fun id => id ≠ "").bind fun id =>
    let parts := split id
    if parts.head? ≠ some "supervised-room".toList ∨
        parts.dropLast.getLast? ≠ some "reply".toList ∨ parts.getLast? ≠ some "v1".toList then none
    else
      let body := parts.tail.dropLast.dropLast
      if body.length ≠ 2 ∧ body.length ≠ 3 then none
      else (body.getLast?.filter fun source => source ≠ []).bind fun source =>
        parseScopedId (String.ofList source) "msg"

/-- What a row is for. -/
structure Receipt where
  agentId : String
  roomId : String
  sourceMessageId : String

/-- The store accepts a receipt of an agent and a room that it serves. -/
def Receipt.accepted (serves : String → String → Prop) (receipt : Receipt) : Prop :=
  serves receipt.agentId receipt.roomId ∧ isBlank receipt.agentId = false ∧
    isBlank receipt.roomId = false ∧ isBlank receipt.sourceMessageId = false

/-- The row is the one that the store inserts for the receipt. -/
def Receipt.inserts (receipt : Receipt) (item : SupervisedInboxItem) : Prop :=
  ∃ inboxItemId sourceMessage activation fifoSequence,
    item = newItem inboxItemId receipt.agentId receipt.roomId receipt.sourceMessageId sourceMessage
      activation fifoSequence

theorem Receipt.inserted (receipt : Receipt) : receipt.inserts
    (newItem "" receipt.agentId receipt.roomId receipt.sourceMessageId .undefined .undefined 1) :=
  ⟨_, _, _, _, rfl⟩

/-- The receipt of the `n`th message of a room. -/
def Receipt.numbered (receipt : Receipt) (n : Nat) : Prop :=
  1 ≤ n ∧ n ≤ POSTGRES_INTEGER_MAX ∧ receipt.sourceMessageId = "msg_" ++ n.repr

structure Unambiguous (serves : String → String → Prop) : Prop where
  apart : ∀ a b : Receipt, a.accepted serves → b.accepted serves → a ≠ b →
    ∀ item other, a.inserts item → b.inserts other → item.actionId ≠ other.actionId ∧
      item.replyClientMessageId ≠ other.replyClientMessageId
  read : ∀ receipt : Receipt, receipt.accepted serves → ∀ n, receipt.numbered n →
    ∀ item, receipt.inserts item →
      parseSupervisedReplySourceNumber (some item.replyClientMessageId) = some n
  others : ∀ receipt : Receipt, receipt.accepted serves → (∀ n, ¬ receipt.numbered n) →
    ∀ item, receipt.inserts item →
      parseSupervisedReplySourceNumber (some item.replyClientMessageId) = none

/-! ## Reading the number of a message -/

theorem decimal_toDigits (n : Nat) : decimal (Nat.toDigits 10 n) = some n := by
  have digits : (Nat.toDigits 10 n).all Char.isDigit = true := by
    rw [List.all_eq_true]
    intro c member
    exact Nat.isDigit_of_mem_toDigits (by omega) (by omega) member
  have value := @Nat.ofDigitChars_ten_toDigits n
  rw [Nat.ofDigitChars_eq_foldl] at value
  simp only [Nat.mul_comm 10] at value
  have nonempty : (Nat.toDigits 10 n).isEmpty = false := by simp [Nat.toDigits_ne_nil]
  rw [decimal, if_pos (by rw [nonempty, digits]; rfl)]
  exact congrArg some value

theorem digitChar_value (digit : c.isDigit = true) :
    c.toNat - '0'.toNat < 10 ∧ Nat.digitChar (c.toNat - '0'.toNat) = c := by
  simp only [Char.isDigit, Bool.and_eq_true, decide_eq_true_eq]
    at digit
  have low : 48 ≤ c.toNat := digit.1
  have high : c.toNat ≤ 57 := digit.2
  have char : ∀ k < 10, Nat.digitChar k = Char.ofNat (k + 48) := by decide
  have value : c.toNat - '0'.toNat < 10 := by
    change c.toNat - 48 < 10
    omega
  refine ⟨value, (char _ value).trans ?_⟩
  rw [show c.toNat - '0'.toNat + 48 = c.toNat from Nat.sub_add_cancel low, Char.ofNat_toNat]

/-- Digits without a leading zero are those that the number is written with. -/
theorem toDigits_of_decimal (read : decimal digits = some n) (first : digits.head? ≠ some '0') :
    digits = Nat.toDigits 10 n ∧ 1 ≤ n := by
  induction digits using List.reverseRecOn generalizing n with
  | nil => simp [decimal] at read
  | append_singleton front c ih =>
    obtain ⟨digits, value⟩ := Option.ite_none_right_eq_some.mp read
    simp only [List.all_append, List.all_cons, Bool.and_eq_true] at digits
    rw [Option.some.injEq, List.foldl_concat] at value
    obtain ⟨small, char⟩ := digitChar_value digits.2.2.1
    cases front with
    | nil =>
      have nonzero : c.toNat - '0'.toNat ≠ 0 := by
        intro zero
        rw [zero] at char
        simp [← char] at first
      rw [List.foldl_nil, Nat.zero_mul, Nat.zero_add] at value
      rw [← value, Nat.toDigits_of_lt_base small, char]
      exact ⟨rfl, by omega⟩
    | cons d front =>
      have all : decimal (d :: front) = some
          ((d :: front).foldl (fun value c => value * 10 + (c.toNat - '0'.toNat)) 0) :=
        if_pos (by simpa using digits.2.1)
      obtain ⟨same, positive⟩ := ih all first
      have joined := Nat.toDigits_append_toDigits (b := 10) (by omega) positive small
      rw [← same, Nat.toDigits_of_lt_base small, char, Nat.mul_comm, value] at joined
      exact ⟨joined, by omega⟩

theorem toDigits_first (positive : 1 ≤ n) : (Nat.toDigits 10 n).head? ≠ some '0' := by
  induction n using Nat.strongRecOn with
  | _ n ih =>
    by_cases small : n < 10
    · rw [Nat.toDigits_of_lt_base small]
      have nonzero : ∀ k < 10, 1 ≤ k → [Nat.digitChar k].head? ≠ some '0' := by decide
      exact nonzero n small positive
    · rw [Nat.toDigits_of_base_le (by omega) (by omega)]
      rw [List.head?_append_of_ne_nil _ Nat.toDigits_ne_nil]
      exact ih (n / 10) (by omega) (by omega)

theorem parseScopedId_iff : parseScopedId source "msg" = some n ↔
    1 ≤ n ∧ n ≤ POSTGRES_INTEGER_MAX ∧ source = "msg_" ++ n.repr := by
  have marker : ("msg" ++ "_").toList = ['m', 's', 'g', '_'] := by decide
  have length : ("msg" ++ "_").length = 4 := by decide
  unfold parseScopedId
  rw [marker, length]
  constructor
  · intro read
    obtain ⟨named, read⟩ := Option.ite_none_right_eq_some.mp read
    obtain ⟨rest, joined⟩ := List.isPrefixOf_iff_prefix.mp named
    simp only [← joined, List.cons_append, List.nil_append, List.drop_succ_cons, List.drop_zero]
      at read
    obtain ⟨first, read⟩ := Option.ite_none_left_eq_some.mp read
    obtain ⟨value, bound⟩ := Option.filter_eq_some_iff.mp read
    obtain ⟨same, positive⟩ := toDigits_of_decimal value first
    refine ⟨positive, of_decide_eq_true bound, String.toList_inj.mp ?_⟩
    rw [← joined, same, String.toList_append, Nat.toList_repr]
    rfl
  · rintro ⟨positive, bound, rfl⟩
    have same : ("msg_" ++ n.repr).toList = ['m', 's', 'g', '_'] ++ Nat.toDigits 10 n := by
      rw [String.toList_append, Nat.toList_repr]
      rfl
    simp [toDigits_first positive, decimal_toDigits, bound]

/-! ## The parts of an id -/

theorem joined_toList (front back : String) :
    (front ++ ":" ++ back).toList = front.toList ++ ':' :: back.toList := by
  rw [String.append_assoc, String.toList_append, String.toList_append]
  rfl

theorem split_append (front back : String) :
    split (front ++ ":" ++ back) = split front ++ split back := by
  unfold split
  rw [joined_toList]
  exact List.splitOn_append_cons_self _ _

theorem split_single (free : ':' ∉ text.toList) : split text = [text.toList] :=
  List.splitOn_eq_singleton free

theorem free_of_split (single : (split text).length = 1) : ':' ∉ text.toList := by
  intro member
  obtain ⟨front, back, cut⟩ := List.append_of_mem member
  unfold split at single
  rw [cut, List.splitOn_append_cons_self, List.length_append] at single
  have before := List.length_pos_of_ne_nil (List.splitOn_ne_nil ':' front)
  have after := List.length_pos_of_ne_nil (List.splitOn_ne_nil ':' back)
  omega

variable {receipt : Receipt} {item other : SupervisedInboxItem}

/-- The parts of the ids of a row between their first and their last two. -/
def Receipt.body (receipt : Receipt) : List (List Char) :=
  split receipt.agentId ++ split receipt.roomId ++ split receipt.sourceMessageId

theorem split_reply (inserts : receipt.inserts item) : split item.replyClientMessageId =
    "supervised-room".toList :: (receipt.body ++ ["reply".toList, "v1".toList]) := by
  obtain ⟨id, message, activation, fifo, rfl⟩ := inserts
  have first : "supervised-room:" = "supervised-room" ++ ":" := by decide
  have last : ":reply:v1" = ":" ++ ("reply" ++ ":" ++ "v1") := by decide
  have word : ∀ text ∈ ["supervised-room", "reply", "v1"], split text = [text.toList] := by
    intro text member
    revert text
    decide
  rw [newItem, first, last, ← String.append_assoc]
  simp only [split_append, word, List.mem_cons, true_or, or_true, Receipt.body, List.append_assoc,
    List.cons_append, List.nil_append]

theorem body_length (receipt : Receipt) : 3 ≤ receipt.body.length := by
  unfold Receipt.body
  rw [List.length_append, List.length_append]
  have agent := List.length_pos_of_ne_nil (List.splitOn_ne_nil ':' receipt.agentId.toList)
  have room := List.length_pos_of_ne_nil (List.splitOn_ne_nil ':' receipt.roomId.toList)
  have source := List.length_pos_of_ne_nil (List.splitOn_ne_nil ':' receipt.sourceMessageId.toList)
  unfold split
  omega

/-- Nothing that is joined has a `:`. -/
def Receipt.plain (receipt : Receipt) : Prop :=
  ':' ∉ receipt.agentId.toList ∧ ':' ∉ receipt.roomId.toList ∧
    ':' ∉ receipt.sourceMessageId.toList

theorem plain_iff (receipt : Receipt) : receipt.body.length = 3 ↔ receipt.plain := by
  constructor
  · intro three
    have agent := List.length_pos_of_ne_nil (List.splitOn_ne_nil ':' receipt.agentId.toList)
    have room := List.length_pos_of_ne_nil (List.splitOn_ne_nil ':' receipt.roomId.toList)
    have source := List.length_pos_of_ne_nil (List.splitOn_ne_nil ':' receipt.sourceMessageId.toList)
    unfold Receipt.body at three
    rw [List.length_append, List.length_append] at three
    refine ⟨free_of_split ?_, free_of_split ?_, free_of_split ?_⟩
    all_goals
      unfold split at three ⊢
      omega
  · rintro ⟨agent, room, source⟩
    rw [Receipt.body, split_single agent, split_single room, split_single source]
    rfl

/-- `parts.slice(1, -2)`, `parts.at(-2)` and `parts.at(-1)`. -/
theorem ends (first last version : List Char) (body : List (List Char)) :
    (first :: (body ++ [last, version])).tail.dropLast.dropLast = body ∧
      (first :: (body ++ [last, version])).dropLast.getLast? = some last ∧
      (first :: (body ++ [last, version])).getLast? = some version := by
  have all : first :: (body ++ [last, version]) = (first :: body ++ [last]) ++ [version] := by simp
  refine ⟨?_, ?_, ?_⟩
  · rw [List.tail_cons, List.append_cons, List.dropLast_concat, List.dropLast_concat]
  · rw [all, List.dropLast_concat, List.getLast?_concat]
  · rw [all, List.getLast?_concat]

theorem parse_reply (inserts : receipt.inserts item) :
    parseSupervisedReplySourceNumber (some item.replyClientMessageId) =
      if receipt.body.length = 3 then parseScopedId receipt.sourceMessageId "msg" else none := by
  have parts := split_reply inserts
  have longer := body_length receipt
  have nonempty : item.replyClientMessageId ≠ "" := by
    intro empty
    rw [empty] at parts
    simp [split] at parts
  obtain ⟨middle, last, version⟩ :=
    ends "supervised-room".toList "reply".toList "v1".toList receipt.body
  rw [parseSupervisedReplySourceNumber, Option.filter_some, if_pos (by simpa using nonempty),
    Option.bind_some, parts]
  dsimp only
  rw [last, version, middle, List.head?_cons, if_neg (by simp)]
  by_cases three : receipt.body.length = 3
  · rw [if_neg (by omega), if_pos three]
    obtain ⟨agent, room, source⟩ := (plain_iff receipt).mp three
    rw [Receipt.body, split_single agent, split_single room, split_single source,
      List.getLast?_concat, Option.filter_some]
    by_cases empty : receipt.sourceMessageId.toList = []
    · rw [if_neg (by simpa using empty), String.toList_eq_nil_iff.mp empty]
      decide
    · rw [if_pos (by simpa using empty), Option.bind_some, String.ofList_toList]
  · rw [if_pos (by omega), if_neg three]

/-! ## Where the ids are unambiguous -/

theorem first_part (freeA : ':' ∉ a) (freeB : ':' ∉ b) (same : a ++ ':' :: x = b ++ ':' :: y) :
    a = b ∧ x = y := by
  have parts := congrArg (List.splitOn ':') same
  rw [List.splitOn_append_cons_self_of_not_mem freeA,
    List.splitOn_append_cons_self_of_not_mem freeB, List.cons.injEq] at parts
  obtain ⟨rfl, _⟩ := parts
  exact ⟨rfl, List.tail_eq_of_cons_eq (List.append_cancel_left same)⟩

def Receipt.identity (receipt : Receipt) : String :=
  "supervised-room:" ++ receipt.agentId ++ ":" ++ receipt.roomId ++ ":" ++ receipt.sourceMessageId

theorem identity_toList (first agent room source : String) :
    (first ++ agent ++ ":" ++ room ++ ":" ++ source).toList =
      first.toList ++ (agent.toList ++ ':' :: (room.toList ++ ':' :: source.toList)) := by
  rw [joined_toList, joined_toList, String.toList_append]
  simp only [List.append_assoc, List.cons_append]

/-- Ids of agents and rooms without a `:` tell the receipts apart. -/
theorem receipt_of_identity {a b : Receipt} (agentA : ':' ∉ a.agentId.toList)
    (roomA : ':' ∉ a.roomId.toList) (agentB : ':' ∉ b.agentId.toList)
    (roomB : ':' ∉ b.roomId.toList) (same : a.identity = b.identity) : a = b := by
  have lists := (identity_toList _ _ _ _).symm.trans
    ((congrArg String.toList same).trans (identity_toList _ _ _ _))
  obtain ⟨agents, rest⟩ := first_part agentA agentB (List.append_cancel_left lists)
  obtain ⟨rooms, sources⟩ := first_part roomA roomB rest
  rw [Receipt.mk.injEq]
  exact ⟨String.toList_inj.mp agents, String.toList_inj.mp rooms, String.toList_inj.mp sources⟩

theorem unambiguous_iff (serves : String → String → Prop) : Unambiguous serves ↔
    ∀ agentId roomId, serves agentId roomId → isBlank agentId = false → isBlank roomId = false →
      ':' ∉ agentId.toList ∧ ':' ∉ roomId.toList := by
  constructor
  · intro unambiguous agentId roomId served agent room
    have blank : isBlank "msg_1" = false := by decide
    have source : "msg_1" = "msg_" ++ Nat.repr 1 := by decide
    have numbered : (⟨agentId, roomId, "msg_1"⟩ : Receipt).numbered 1 :=
      ⟨Nat.le_refl 1, Nat.le_add_left 1 2147483646, source⟩
    have inserts := (⟨agentId, roomId, "msg_1"⟩ : Receipt).inserted
    have read := unambiguous.read _ ⟨served, agent, room, blank⟩ 1 numbered _ inserts
    rw [parse_reply inserts] at read
    obtain ⟨three, _⟩ := Option.ite_none_right_eq_some.mp read
    obtain ⟨agent, room, _⟩ := (plain_iff _).mp three
    exact ⟨agent, room⟩
  · intro free
    constructor
    · rintro a b ⟨servedA, agentA, roomA, _⟩ ⟨servedB, agentB, roomB, _⟩ differ item other
        ⟨_, _, _, _, rfl⟩ ⟨_, _, _, _, rfl⟩
      have apart : a.identity ≠ b.identity := by
        intro same
        obtain ⟨agentA, roomA⟩ := free _ _ servedA agentA roomA
        obtain ⟨agentB, roomB⟩ := free _ _ servedB agentB roomB
        exact differ (receipt_of_identity agentA roomA agentB roomB same)
      exact ⟨fun same => apart ((String.append_left_inj _).mp same),
        fun same => apart ((String.append_left_inj _).mp same)⟩
    · rintro receipt ⟨served, agent, room, _⟩ n ⟨positive, bound, source⟩ item inserts
      obtain ⟨agent, room⟩ := free _ _ served agent room
      have digits : ':' ∉ receipt.sourceMessageId.toList := by
        rw [source, String.toList_append, Nat.toList_repr, List.mem_append, not_or]
        refine ⟨by decide, fun member => ?_⟩
        exact absurd (Nat.isDigit_of_mem_toDigits (by omega) (by omega) member) (by decide)
      rw [parse_reply inserts, if_pos ((plain_iff receipt).mpr ⟨agent, room, digits⟩)]
      exact parseScopedId_iff.mpr ⟨positive, bound, source⟩
    · intro receipt _ unnumbered item inserts
      rw [parse_reply inserts]
      split
      · cases read : parseScopedId receipt.sourceMessageId "msg" with
        | none => rfl
        | some n => exact absurd (parseScopedId_iff.mp read) (unnumbered n)
      · rfl

/-- A `:` that the agent or the room may have, and the reply in a room on a port. -/
theorem joined_ids_collide :
    (let first := newItem "" "agent:a" "room" "msg_1" .undefined .undefined 1
     let second := newItem "" "agent" "a:room" "msg_1" .undefined .undefined 1
     first.actionId = second.actionId ∧
       first.replyClientMessageId = second.replyClientMessageId) ∧
      parseSupervisedReplySourceNumber (some (newItem "" "agent" "git.example:8443/team/repo" "msg_1"
        .undefined .undefined 1).replyClientMessageId) = none ∧
      ¬ Unambiguous fun _ _ => True := by
  have same : (newItem "" "agent:a" "room" "msg_1" .undefined .undefined 1).actionId =
      (newItem "" "agent" "a:room" "msg_1" .undefined .undefined 1).actionId := by decide
  refine ⟨by decide, by decide +kernel, fun unambiguous => ?_⟩
  have apart := unambiguous.apart ⟨"agent:a", "room", "msg_1"⟩ ⟨"agent", "a:room", "msg_1"⟩
    ⟨trivial, by decide⟩ ⟨trivial, by decide⟩ (by simp) _ _ (Receipt.inserted _) (Receipt.inserted _)
  exact apart.1 same

end LetAgents.Inbox.PublicationIds
