import LetAgents.Routing.RoutingAliases
import Mathlib.Data.List.Lex
import Mathlib.Data.List.Sort
import Mathlib.Logic.Function.Basic

/-!
# The global address resolver

Source: src/shared/activation-routing.mjs:17-37, 304-426. A message is resolved against the
aliases of all identities of a room: its mentions, the sender it replies to and its own sender.
-/
namespace LetAgents.Routing

open Lib Lib.KeySets Lib.RegExp

/-! ## Reading a message -/

structure ReplyTo where
  sender : Option Text
  source : Option Text

structure RoutedMessage where
  text : Option Text
  sender : Option Text := none
  reply_to : Option ReplyTo := none

def normalizedString (value : Option Text) : Text := (value.getD []).trim

/-- `toLowerCase()` as far as its result is ASCII. -/
def lowered (t : Text) : Text :=
  t.flatMap fun c =>
    if isUpper c then [c + 32]
    else if c = 0x212A then [u 'k']
    else if c = 0x130 then [u 'i', 0x307]
    else [c]

def mentionPattern : Compiled := .literal
  "(^|[\\s([\x7b:;,])@([A-Za-z0-9][A-Za-z0-9_.:-]*(?:\\/[A-Za-z0-9][A-Za-z0-9_.-]*)*)" false
  (by decide +kernel)

/-- What the second group captures in each match; every match takes something. -/
def secondGroups (regex : Compiled) : Nat → RegExp.Place → List Text
  | 0, _ => []
  | fuel + 1, p =>
    match regex.exec p with
    | none => []
    | some (first, last) =>
      (((regex.node.readings regex.ignoreCase false ⟨first, []⟩).head?.bind
        fun reading => reading.captures.lookup 2).getD []) :: secondGroups regex fuel last

def extractMentionHandles (value : Option Text) : List Text :=
  let raw := value.getD []
  secondGroups mentionPattern (raw.length + 1) ⟨[], raw⟩

def isBroadcastHandle (handle : Text) : Bool :=
  [text "agents", text "everyone", text "room"].contains (normalizeRoutingHandle (some handle))

def NON_AGENT_AT_HANDLES : List Text :=
  ["charset", "container", "counter-style", "font-face", "font-feature-values",
    "font-palette-values", "import", "keyframes", "layer", "media", "namespace", "page", "package",
    "property", "scope", "starting-style", "supports", "types", "viewport"].map text

def isLikelyAgentMentionHandle (handle : Text) : Bool :=
  let raw := normalizedString (some handle)
  if raw = [] then false
  else
    let normalized := lowered raw
    let firstSegment := ((Text.split (u '/') normalized).headD []).replaceUnit (u '_') (u '-')
    if Text.startsWith normalized (text "agent:") then true
    else if Text.includes normalized [u '/'] && normalized == raw then false
    else !NON_AGENT_AT_HANDLES.contains firstSegment

def broadcastPattern : Compiled := .literal
  "\\b(everyone|all agents|you guys|both of you|any agent|whoever owns this)\\b" false
  (by decide +kernel)

def hasBroadcastAddress (value : Option Text) : Bool :=
  broadcastPattern.test (lowered (value.getD []))

def normalizeMentionIdentityHandle (value : Text) : Text :=
  let normalized := normalizeRoutingHandle (some value)
  if Text.startsWith normalized (text "agent:") then normalized.drop (text "agent:").length
  else normalized

/-! ## The aliases of a room -/

/-- The agent keys of each alias. -/
abbrev KeysByAlias := Text → List Text

def addIdentity (keysByAlias : KeysByAlias) (identity : RoutingIdentity) : KeysByAlias :=
  let key := normalizedString identity.agent_key
  if key = [] then keysByAlias
  else (routingIdentityAliases identity).foldl (fun keysByAlias name =>
    Function.update keysByAlias name (add (keysByAlias name) key)) keysByAlias

def aliasAuthority (identities : List RoutingIdentity) : KeysByAlias :=
  identities.foldl addIdentity fun _ => []

/-! ## Resolving -/

structure ResolverOptions where
  preferredExplicitMentionAgentKeys : List Text := []
  explicitMentionOwnerScopeByAgentKey : List (Text × Text) := []

/-- The owner scope of a key; the empty one counts as none. -/
def ownerScope (options : ResolverOptions) (key : Text) : Option Text :=
  (options.explicitMentionOwnerScopeByAgentKey.lookup key).filter (· ≠ [])

def resolveExplicitMentionKey (options : ResolverOptions) (keys : List Text) : Option Text :=
  if keys.length ≤ 1 then sole keys
  else
    match sole (keys.filter fun key => options.preferredExplicitMentionAgentKeys.contains key) with
    | none => none
    | some preferred =>
      match keys.mapM (ownerScope options) with
      | none => none
      | some scopes => if (ofList scopes).length = 1 then some preferred else none

structure AmbiguousMention where
  handle : Text
  agentKeys : List Text

/-- The keys that the mentions of a message name, and the mentions that name several. -/
structure Mentions where
  explicitMentionKeys : List Text := []
  ambiguousMentions : List AmbiguousMention := []

/-- The key that a mention is attributed to. -/
def mentionKey (options : ResolverOptions) (keysByAlias : KeysByAlias) (mention : Text) :
    Option Text :=
  if isBroadcastHandle mention then none
  else
    let name := normalizeMentionIdentityHandle mention
    if name = [] then none else resolveExplicitMentionKey options (keysByAlias name)

def addMention (options : ResolverOptions) (keysByAlias : KeysByAlias) (found : Mentions)
    (mention : Text) : Mentions :=
  if isBroadcastHandle mention then found
  else
    let name := normalizeMentionIdentityHandle mention
    if name = [] then found
    else
      match resolveExplicitMentionKey options (keysByAlias name) with
      | some key => { found with explicitMentionKeys := add found.explicitMentionKeys key }
      | none =>
        if 1 < (keysByAlias name).length ∧ (found.ambiguousMentions.any fun entry =>
            normalizeMentionIdentityHandle entry.handle = name) = false then
          { found with ambiguousMentions := found.ambiguousMentions ++
              [⟨mention, (keysByAlias name).insertionSort (· ≤ ·)⟩] }
        else found

/-- The keys of the full label, or of the segments. -/
def matchingKeys (keysByAlias : KeysByAlias) (rows : List AliasRow) (full : Bool) : List Text :=
  addAll [] ((rows.filter fun row => row.isFull = full).flatMap fun row => keysByAlias row.aliasText)

/-- The key that a sender label is attributed to. -/
def labelKey (keysByAlias : KeysByAlias) (rows : List AliasRow) : Option Text :=
  let fullMatches := matchingKeys keysByAlias rows true
  sole (if fullMatches ≠ [] then fullMatches else matchingKeys keysByAlias rows false)

structure Resolution where
  broadcast : Bool
  hasMention : Bool
  hasAgentMention : Bool
  explicitMentionKeys : List Text
  ambiguousMentions : List AmbiguousMention
  replyTargetKeys : List Text
  senderKeys : List Text

def replyAliases (message : RoutedMessage) : List AliasRow :=
  match message.reply_to with
  | none => []
  | some replyTo =>
    if normalizedString replyTo.source = text "agent" then
      routingSenderAliasRows replyTo.sender 16
    else []

def createGlobalAgentAddressResolver (identities : List RoutingIdentity)
    (options : ResolverOptions) (message : RoutedMessage) : Resolution :=
  let keysByAlias := aliasAuthority identities
  let mentions := extractMentionHandles message.text
  let found := mentions.foldl (addMention options keysByAlias) {}
  { broadcast := mentions.any isBroadcastHandle || hasBroadcastAddress message.text
    hasMention := mentions.any fun mention => !isBroadcastHandle mention
    hasAgentMention := mentions.any isLikelyAgentMentionHandle
    explicitMentionKeys := found.explicitMentionKeys
    ambiguousMentions := found.ambiguousMentions
    replyTargetKeys := (labelKey keysByAlias (replyAliases message)).toList
    senderKeys := (labelKey keysByAlias (routingSenderAliasRows message.sender 16)).toList }

/-! ## The authority of the aliases -/

variable {keysByAlias : KeysByAlias} {x name : Text} {α : Type}

theorem mem_addAliases {names : List Text} :
    x ∈ names.foldl (fun keysByAlias name =>
        Function.update keysByAlias name (add (keysByAlias name) key)) keysByAlias name ↔
      x ∈ keysByAlias name ∨ (name ∈ names ∧ x = key) := by
  induction names generalizing keysByAlias with
  | nil => simp
  | cons first rest ih =>
    rw [List.foldl_cons, ih, List.mem_cons]
    by_cases same : name = first
    · rw [same, Function.update_self, mem_add]
      tauto
    · rw [Function.update_of_ne same]
      tauto

theorem nodup_addAliases {names : List Text} (nodup : ∀ name, (keysByAlias name).Nodup)
    (name : Text) :
    (names.foldl (fun keysByAlias name =>
      Function.update keysByAlias name (add (keysByAlias name) key)) keysByAlias name).Nodup := by
  induction names generalizing keysByAlias with
  | nil => exact nodup name
  | cons first rest ih =>
    apply ih
    intro other
    dsimp only
    by_cases same : other = first
    · rw [same, Function.update_self]
      exact nodup_add (nodup first) key
    · rw [Function.update_of_ne same]
      exact nodup other

/-- The identity stands for a key under an alias. -/
def StandsFor (identity : RoutingIdentity) (name key : Text) : Prop :=
  name ∈ routingIdentityAliases identity ∧ key = normalizedString identity.agent_key ∧ key ≠ []

theorem mem_addIdentity :
    x ∈ addIdentity keysByAlias identity name ↔
      x ∈ keysByAlias name ∨ StandsFor identity name x := by
  unfold addIdentity StandsFor
  split
  · rename_i empty
    rw [empty]
    tauto
  · rename_i named
    rw [mem_addAliases]
    constructor
    · rintro (old | ⟨member, rfl⟩)
      · exact .inl old
      · exact .inr ⟨member, rfl, named⟩
    · rintro (old | ⟨member, same, -⟩)
      · exact .inl old
      · exact .inr ⟨member, same⟩

theorem mem_aliasAuthority :
    x ∈ aliasAuthority identities name ↔ ∃ identity ∈ identities, StandsFor identity name x := by
  unfold aliasAuthority
  induction identities using List.reverseRecOn with
  | nil => simp
  | append_singleton identities identity ih =>
    rw [List.foldl_concat, mem_addIdentity, ih]
    simp only [List.mem_append, List.mem_singleton]
    constructor
    · rintro (⟨other, member, stands⟩ | stands)
      · exact ⟨other, .inl member, stands⟩
      · exact ⟨identity, .inr rfl, stands⟩
    · rintro ⟨other, member | rfl, stands⟩
      · exact .inl ⟨other, member, stands⟩
      · exact .inr stands

theorem nodup_aliasAuthority (identities : List RoutingIdentity) (name : Text) :
    (aliasAuthority identities name).Nodup := by
  unfold aliasAuthority
  induction identities using List.reverseRecOn generalizing name with
  | nil => exact List.nodup_nil
  | append_singleton identities identity ih =>
    rw [List.foldl_concat, addIdentity]
    split
    · exact ih name
    · exact nodup_addAliases ih name

/-! ## The rule for ties -/

theorem mapM_some {β : Type} {f : α → Option β} {keys : List α} {values : List β}
    (all : keys.mapM f = some values) :
    (∀ key ∈ keys, ∃ value ∈ values, f key = some value) ∧
      ∀ value ∈ values, ∃ key ∈ keys, f key = some value := by
  induction keys generalizing values with
  | nil =>
    obtain rfl : [] = values := by simpa using all
    exact ⟨nofun, nofun⟩
  | cons key rest ih =>
    rw [List.mapM_cons] at all
    obtain ⟨value, here, all⟩ := Option.bind_eq_some_iff.mp all
    obtain ⟨later, there, all⟩ := Option.bind_eq_some_iff.mp all
    obtain rfl := Option.some.inj all
    obtain ⟨found, made⟩ := ih there
    simp only [List.forall_mem_cons, List.exists_mem_cons_iff]
    refine ⟨⟨.inl here, fun key member => .inr (found key member)⟩, .inl here,
      fun value member => .inr (made value member)⟩

theorem mapM_none {β : Type} {f : α → Option β} {keys : List α} (fails : keys.mapM f = none) :
    ∃ key ∈ keys, f key = none := by
  induction keys with
  | nil => simp at fails
  | cons key rest ih =>
    rw [List.mapM_cons] at fails
    cases here : f key with
    | none => exact ⟨key, .head _, here⟩
    | some value =>
      cases there : rest.mapM f with
      | none =>
        obtain ⟨other, member, none'⟩ := ih there
        exact ⟨other, .tail _ member, none'⟩
      | some values =>
        rw [here, there] at fails
        cases fails

theorem length_eq_one_iff {set : List α} (nodup : set.Nodup) :
    set.length = 1 ↔ ∃ x, ∀ y, y ∈ set ↔ y = x := by
  constructor
  · intro one
    obtain ⟨x, rfl⟩ := List.length_eq_one_iff.mp one
    exact ⟨x, fun y => List.mem_singleton⟩
  · rintro ⟨x, only⟩
    have names := (sole_eq_some nodup).mpr only
    unfold sole at names
    split at names
    · rfl
    · cases names

/-- All keys have one owner. -/
def SameOwner (options : ResolverOptions) (keys : List Text) : Prop :=
  ∃ scope, ∀ key ∈ keys, ownerScope options key = some scope

/-- The key is the only preferred one, and all keys have one owner. -/
structure Breaks (options : ResolverOptions) (keys : List Text) (x : Text) : Prop where
  member : x ∈ keys
  preferred : x ∈ options.preferredExplicitMentionAgentKeys
  unique : ∀ y ∈ keys, y ∈ options.preferredExplicitMentionAgentKeys → y = x
  owner : SameOwner options keys

section

variable {options : ResolverOptions} {keys : List Text} {x : Text}

theorem sole_preferred (nodup : keys.Nodup) :
    sole (keys.filter fun key => options.preferredExplicitMentionAgentKeys.contains key) = some x ↔
      x ∈ keys ∧ x ∈ options.preferredExplicitMentionAgentKeys ∧
        ∀ y ∈ keys, y ∈ options.preferredExplicitMentionAgentKeys → y = x := by
  rw [sole_eq_some (nodup.filter _)]
  simp only [List.mem_filter, List.contains_iff_mem]
  constructor
  · intro only
    have here := (only x).mpr rfl
    exact ⟨here.1, here.2, fun y member preferred => (only y).mp ⟨member, preferred⟩⟩
  · rintro ⟨member, preferred, unique⟩ y
    constructor
    · exact fun here => unique y here.1 here.2
    · rintro rfl
      exact ⟨member, preferred⟩

theorem resolve_tie (nodup : keys.Nodup) (several : 1 < keys.length) :
    resolveExplicitMentionKey options keys = some x ↔ Breaks options keys x := by
  obtain ⟨first, member⟩ := List.exists_mem_of_length_pos (Nat.zero_lt_of_lt several)
  unfold resolveExplicitMentionKey
  rw [if_neg (Nat.not_le.mpr several)]
  cases preferred : sole (keys.filter fun key =>
      options.preferredExplicitMentionAgentKeys.contains key) with
  | none =>
    refine iff_of_false (Option.some_ne_none _).symm fun breaks => ?_
    rw [(sole_preferred nodup).mpr ⟨breaks.member, breaks.preferred, breaks.unique⟩] at preferred
    cases preferred
  | some one =>
    obtain ⟨inKeys, isPreferred, unique⟩ := (sole_preferred nodup).mp preferred
    cases scopes : keys.mapM (ownerScope options) with
    | none =>
      refine iff_of_false (Option.some_ne_none _).symm fun breaks => ?_
      obtain ⟨key, inKeys, none'⟩ := mapM_none scopes
      obtain ⟨scope, all⟩ := breaks.owner
      rw [all key inKeys] at none'
      cases none'
    | some values =>
      obtain ⟨found, made⟩ := mapM_some scopes
      have owner : (ofList values).length = 1 ↔ SameOwner options keys := by
        rw [length_eq_one_iff (nodup_ofList values)]
        simp only [mem_ofList]
        constructor
        · rintro ⟨scope, only⟩
          refine ⟨scope, fun key inKeys => ?_⟩
          obtain ⟨value, inValues, same⟩ := found key inKeys
          rw [same, (only value).mp inValues]
        · rintro ⟨scope, all⟩
          refine ⟨scope, fun value => ⟨fun inValues => ?_, ?_⟩⟩
          · obtain ⟨key, inKeys, same⟩ := made value inValues
            rw [all key inKeys] at same
            exact (Option.some.inj same).symm
          · rintro rfl
            obtain ⟨value, inValues, same⟩ := found first member
            rw [all first member] at same
            rw [Option.some.inj same]
            exact inValues
      dsimp only
      split
      · rename_i single
        have sameOwner := owner.mp single
        rw [Option.some.injEq]
        constructor
        · rintro rfl
          exact ⟨inKeys, isPreferred, unique, sameOwner⟩
        · intro breaks
          exact (unique x breaks.member breaks.preferred).symm
      · rename_i others
        exact iff_of_false (Option.some_ne_none _).symm fun breaks =>
          others (owner.mpr breaks.owner)

/-- What the rule depends on: the elements of the set. -/
theorem resolve_eq_some (nodup : keys.Nodup) :
    resolveExplicitMentionKey options keys = some x ↔
      (∀ y, y ∈ keys ↔ y = x) ∨ (∃ y ∈ keys, y ≠ x) ∧ Breaks options keys x := by
  rcases Nat.lt_or_ge 1 keys.length with several | few
  · rw [resolve_tie nodup several]
    constructor
    · intro breaks
      refine .inr ⟨?_, breaks⟩
      by_contra only
      push Not at only
      have one := (length_eq_one_iff nodup).mpr ⟨x, fun y => ⟨only y, fun same => same ▸ breaks.member⟩⟩
      rw [one] at several
      exact Nat.lt_irrefl _ several
    · rintro (only | ⟨-, breaks⟩)
      · rw [(length_eq_one_iff nodup).mpr ⟨x, only⟩] at several
        exact absurd several (Nat.lt_irrefl _)
      · exact breaks
  · unfold resolveExplicitMentionKey
    rw [if_pos few, sole_eq_some nodup]
    constructor
    · exact .inl
    · rintro (only | ⟨⟨y, member, other⟩, breaks⟩)
      · exact only
      · rcases keys with _ | ⟨a, _ | ⟨b, rest⟩⟩
        · cases member
        · rw [List.mem_singleton.mp member, List.mem_singleton.mp breaks.member] at other
          exact absurd rfl other
        · simp at few

theorem resolve_congr (nodup : keys.Nodup) (nodup' : keys'.Nodup)
    (same : ∀ y, y ∈ keys ↔ y ∈ keys') :
    resolveExplicitMentionKey options keys = resolveExplicitMentionKey options keys' := by
  have breaks_iff : ∀ y, Breaks options keys y ↔ Breaks options keys' y := by
    intro y
    constructor
    · rintro ⟨member, preferred, unique, scope, owner⟩
      exact ⟨(same y).mp member, preferred, fun z there => unique z ((same z).mpr there), scope,
        fun z there => owner z ((same z).mpr there)⟩
    · rintro ⟨member, preferred, unique, scope, owner⟩
      exact ⟨(same y).mpr member, preferred, fun z there => unique z ((same z).mp there), scope,
        fun z there => owner z ((same z).mp there)⟩
  apply Option.ext
  intro y
  rw [resolve_eq_some nodup, resolve_eq_some nodup']
  simp only [same, breaks_iff]

/-- A key more does not give a tie to another of the keys. -/
theorem resolve_grown (grown : Grown keys long added) (nodup : keys.Nodup) (nodup' : long.Nodup) :
    Undiverted (resolveExplicitMentionKey options keys) (resolveExplicitMentionKey options long)
      added := by
  apply undiverted_of_some
  intro y names
  by_cases new : y = added
  · exact .inr new
  refine .inl ((resolve_eq_some nodup).mpr ?_)
  rcases (resolve_eq_some nodup').mp names with only | ⟨-, breaks⟩
  · refine .inl fun z => ⟨fun member => (only z).mp (grown.keeps z member), ?_⟩
    rintro rfl
    exact (grown.adds z ((only z).mpr rfl)).resolve_right new
  · have member := (grown.adds y breaks.member).resolve_right new
    have shorter : Breaks options keys y := by
      obtain ⟨scope, owner⟩ := breaks.owner
      exact ⟨member, breaks.preferred, fun z there => breaks.unique z (grown.keeps z there), scope,
        fun z there => owner z (grown.keeps z there)⟩
    by_cases others : ∃ z ∈ keys, z ≠ y
    · exact .inr ⟨others, shorter⟩
    · push Not at others
      exact .inl fun z => ⟨others z, fun same => same ▸ member⟩

end

/-! ## Two authorities -/

theorem mem_matchingKeys :
    x ∈ matchingKeys keysByAlias rows full ↔
      ∃ row ∈ rows, row.isFull = full ∧ x ∈ keysByAlias row.aliasText := by
  simp [matchingKeys, and_assoc]

theorem nodup_matchingKeys (keysByAlias : KeysByAlias) (rows : List AliasRow) (full : Bool) :
    (matchingKeys keysByAlias rows full).Nodup := nodup_addAll List.nodup_nil _

section

variable {short long : KeysByAlias} {added : Text}

theorem matching_grown (grown : ∀ name, Grown (short name) (long name) added)
    (rows : List AliasRow) (full : Bool) :
    Grown (matchingKeys short rows full) (matchingKeys long rows full) added := by
  constructor
  · intro x member
    obtain ⟨row, inRows, isFull, here⟩ := mem_matchingKeys.mp member
    exact mem_matchingKeys.mpr ⟨row, inRows, isFull, (grown _).keeps x here⟩
  · intro x member
    obtain ⟨row, inRows, isFull, here⟩ := mem_matchingKeys.mp member
    exact ((grown _).adds x here).imp_left fun old =>
      mem_matchingKeys.mpr ⟨row, inRows, isFull, old⟩

/-- A full label that named someone keeps its segments in the shadow. -/
theorem labelKey_undiverted (grown : ∀ name, Grown (short name) (long name) added)
    (rows : List AliasRow) : Undiverted (labelKey short rows) (labelKey long rows) added := by
  have full := matching_grown grown rows true
  have segments := matching_grown grown rows false
  unfold labelKey
  dsimp only
  by_cases named : matchingKeys short rows true = []
  · rw [if_neg (not_not.mpr named)]
    by_cases named' : matchingKeys long rows true = []
    · rw [if_neg (not_not.mpr named')]
      exact segments.sole (nodup_matchingKeys _ _ _) (nodup_matchingKeys _ _ _)
    · -- only the new key can stand under the full label
      rw [if_pos named']
      apply undiverted_of_some
      intro x names
      have here := ((sole_eq_some (nodup_matchingKeys _ _ _)).mp names x).mpr rfl
      refine (full.adds x here).imp_left fun old => ?_
      rw [named] at old
      cases old
  · rw [if_pos named, if_pos (full.nonempty named)]
    exact full.sole (nodup_matchingKeys _ _ _) (nodup_matchingKeys _ _ _)

theorem mentionKey_undiverted (options : ResolverOptions)
    (grown : ∀ name, Grown (short name) (long name) added) (nodup : ∀ name, (short name).Nodup)
    (nodup' : ∀ name, (long name).Nodup) (mention : Text) :
    Undiverted (mentionKey options short mention) (mentionKey options long mention) added := by
  unfold mentionKey
  dsimp only
  split
  · exact .inl rfl
  · split
    · exact .inl rfl
    · exact resolve_grown (grown _) (nodup _) (nodup' _)

theorem labelKey_congr (same : ∀ name x, x ∈ short name ↔ x ∈ long name) (rows : List AliasRow) :
    labelKey short rows = labelKey long rows := by
  have members : ∀ full x, x ∈ matchingKeys short rows full ↔ x ∈ matchingKeys long rows full := by
    intro full x
    rw [mem_matchingKeys, mem_matchingKeys]
    simp only [same]
  have empty : matchingKeys short rows true = [] ↔ matchingKeys long rows true = [] := by
    rw [List.eq_nil_iff_forall_not_mem, List.eq_nil_iff_forall_not_mem]
    simp only [members]
  unfold labelKey
  dsimp only
  by_cases named : matchingKeys short rows true = []
  · rw [if_neg (not_not.mpr named), if_neg (not_not.mpr (empty.mp named))]
    exact sole_congr (nodup_matchingKeys _ _ _) (nodup_matchingKeys _ _ _) (members false)
  · rw [if_pos named, if_pos (fun none' => named (empty.mpr none'))]
    exact sole_congr (nodup_matchingKeys _ _ _) (nodup_matchingKeys _ _ _) (members true)

theorem addMention_congr (options : ResolverOptions)
    (same : ∀ name x, x ∈ short name ↔ x ∈ long name) (nodup : ∀ name, (short name).Nodup)
    (nodup' : ∀ name, (long name).Nodup) : addMention options short = addMention options long := by
  funext found mention
  unfold addMention
  dsimp only
  have order := (List.perm_ext_iff_of_nodup (nodup (normalizeMentionIdentityHandle mention))
    (nodup' _)).mpr (same _)
  have sorted : (short (normalizeMentionIdentityHandle mention)).insertionSort (· ≤ ·) =
      (long (normalizeMentionIdentityHandle mention)).insertionSort (· ≤ ·) := by
    refine @List.Perm.eq_of_pairwise' _ (· ≤ ·) _ _ _ ?_ ?_ ?_
    · exact List.pairwise_insertionSort _ _
    · exact List.pairwise_insertionSort _ _
    · exact (List.perm_insertionSort _ _).trans (order.trans (List.perm_insertionSort _ _).symm)
  rw [resolve_congr (nodup _) (nodup' _) (same _), order.length_eq, sorted]

end

/-- The keys that a message names explicitly are those of its mentions. -/
theorem mem_explicitMentionKeys {mentions : List Text} :
    x ∈ (mentions.foldl (addMention options keysByAlias) found).explicitMentionKeys ↔
      x ∈ found.explicitMentionKeys ∨
        ∃ mention ∈ mentions, mentionKey options keysByAlias mention = some x := by
  induction mentions generalizing found with
  | nil => simp
  | cons mention rest ih =>
    have here : x ∈ (addMention options keysByAlias found mention).explicitMentionKeys ↔
        x ∈ found.explicitMentionKeys ∨ mentionKey options keysByAlias mention = some x := by
      unfold addMention mentionKey
      dsimp only
      split
      · simp
      · split
        · simp
        · cases resolveExplicitMentionKey options
              (keysByAlias (normalizeMentionIdentityHandle mention)) with
          | none =>
            dsimp only
            split
            · simp
            · simp
          | some key => simp [eq_comm]
    rw [List.foldl_cons, ih, here, List.exists_mem_cons_iff, or_assoc]

theorem aliasAuthority_grown (identities : List RoutingIdentity) (extra : RoutingIdentity)
    (name : Text) : Grown (aliasAuthority identities name)
      (aliasAuthority (identities ++ [extra]) name) (normalizedString extra.agent_key) := by
  constructor
  · intro x member
    obtain ⟨identity, inList, stands⟩ := mem_aliasAuthority.mp member
    exact mem_aliasAuthority.mpr ⟨identity, List.mem_append_left _ inList, stands⟩
  · intro x member
    obtain ⟨identity, inList, stands⟩ := mem_aliasAuthority.mp member
    rcases List.mem_append.mp inList with old | new
    · exact .inl (mem_aliasAuthority.mpr ⟨identity, old, stands⟩)
    · rw [List.mem_singleton.mp new] at stands
      exact .inr stands.2.1

theorem resolver_perm (perm : other.Perm identities) (options : ResolverOptions)
    (message : RoutedMessage) :
    createGlobalAgentAddressResolver other options message =
      createGlobalAgentAddressResolver identities options message := by
  have same : ∀ name x, x ∈ aliasAuthority other name ↔ x ∈ aliasAuthority identities name := by
    intro name x
    rw [mem_aliasAuthority, mem_aliasAuthority]
    simp only [perm.mem_iff]
  simp only [createGlobalAgentAddressResolver]
  rw [addMention_congr options same (nodup_aliasAuthority other) (nodup_aliasAuthority identities),
    labelKey_congr same, labelKey_congr same]

/-- One identity more attributes a mention, a reply or a sender to the agent it was attributed
to, to none, or to the new one; the order of the identities does not matter. -/
theorem registration_redirects_nothing (identities : List RoutingIdentity)
    (extra : RoutingIdentity) (options : ResolverOptions) (message : RoutedMessage) :
    let before := createGlobalAgentAddressResolver identities options message
    let after := createGlobalAgentAddressResolver (identities ++ [extra]) options message
    let added := normalizedString extra.agent_key
    (∀ mention ∈ extractMentionHandles message.text,
      Undiverted (mentionKey options (aliasAuthority identities) mention)
        (mentionKey options (aliasAuthority (identities ++ [extra])) mention) added) ∧
      (∀ x, x ∈ after.explicitMentionKeys → x ∈ before.explicitMentionKeys ∨ x = added) ∧
      Undiverted before.replyTargetKeys.head? after.replyTargetKeys.head? added ∧
      Undiverted before.senderKeys.head? after.senderKeys.head? added ∧
      ∀ identities', identities'.Perm identities →
        createGlobalAgentAddressResolver identities' options message = before := by
  intro before after added
  have grown := aliasAuthority_grown identities extra
  have mentions := mentionKey_undiverted options grown (nodup_aliasAuthority identities)
    (nodup_aliasAuthority _)
  refine ⟨fun mention _ => mentions mention, ?_, ?_, ?_, ?_⟩
  · intro x named
    rcases mem_explicitMentionKeys.mp named with none' | ⟨mention, inText, key⟩
    · exact absurd none' List.not_mem_nil
    · rcases mentions mention with same | gone | new
      · rw [same] at key
        exact .inl (mem_explicitMentionKeys.mpr (.inr ⟨mention, inText, key⟩))
      · rw [gone] at key
        cases key
      · rw [new] at key
        exact .inr (Option.some.inj key).symm
  · have reply := labelKey_undiverted grown (replyAliases message)
    simp only [before, after, createGlobalAgentAddressResolver, Option.head?_toList]
    exact reply
  · have sender := labelKey_undiverted grown (routingSenderAliasRows message.sender 16)
    simp only [before, after, createGlobalAgentAddressResolver, Option.head?_toList]
    exact sender
  · intro identities' perm
    exact resolver_perm perm options message

end LetAgents.Routing
