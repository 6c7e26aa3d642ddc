import LetAgents.Lib.KeySets
import LetAgents.Lib.Texts

/-!
# Routing aliases

Source: src/shared/routing-aliases.mjs:8-62.

Modelling boundary: what is no string is left out like a missing value, and so are lone
surrogates, which no routine here tells from other units.
-/
namespace LetAgents.Routing

open Lib Lib.RegExp

def foldRoutingText (value : Text) : Text := value.map fun c => if isUpper c then c + 32 else c

/-- `value.replace(/\s+/g, " ")`, behind a space or not. -/
def collapseSpaces : Bool → Text → Text
  | _, [] => []
  | inRun, c :: rest =>
    if isSpace c then
      if inRun then collapseSpaces true rest else u ' ' :: collapseSpaces true rest
    else c :: collapseSpaces false rest

def normalizeRoutingSender (value : Option Text) : Text :=
  collapseSpaces false (foldRoutingText (value.getD []).trim)

/-- A unit that a handle keeps. -/
def isHandleUnit (c : Nat) : Bool :=
  isLower c || isDigit c || (text "_.:/-").contains c

def normalizeRoutingHandle (value : Option Text) : Text :=
  (foldRoutingText (value.getD []).trim).filter isHandleUnit

/-- An identity under either spelling of its fields. -/
structure RoutingIdentity where
  actorLabel : Option Text := none
  actor_label : Option Text := none
  displayName : Option Text := none
  display_name : Option Text := none
  agentKey : Option Text := none
  agent_key : Option Text := none

/-- `agentKey.split("/").pop()` -/
def lastSegment (agentKey : Text) : Text := (Text.split (u '/') agentKey).getLastD []

def routingIdentityAliasInputs (identity : RoutingIdentity) : List Text :=
  let agentKey := (identity.agentKey.or identity.agent_key).getD []
  KeySets.ofList (([(identity.actorLabel.or identity.actor_label).getD [],
    (identity.displayName.or identity.display_name).getD [],
    agentKey, lastSegment agentKey].map Text.trim).filter (· ≠ []))

def routingIdentityAliases (identity : RoutingIdentity) : List Text :=
  (routingIdentityAliasInputs identity).foldl (fun aliases value =>
    let senderAlias := normalizeRoutingSender (some value)
    let aliases := if senderAlias ≠ [] then KeySets.add aliases senderAlias else aliases
    let handleAlias := normalizeRoutingHandle (some value)
    if handleAlias ≠ [] then KeySets.add aliases handleAlias else aliases) []

structure AliasRow where
  aliasText : Text
  isFull : Bool

/-- The aliases of a sender: its full label first, then the segments between bars. -/
def routingSenderAliasRows (sender : Option Text) (segmentLimit : Nat) : List AliasRow :=
  let raw := sender.getD []
  let fullAlias := normalizeRoutingSender (some raw)
  let rows := if fullAlias ≠ [] then [⟨fullAlias, true⟩] else []
  ((Text.split (u '|') raw).take segmentLimit).foldl (fun rows segment =>
    let segmentAlias := normalizeRoutingSender (some segment)
    if segmentAlias ≠ [] ∧ (rows.all fun row : AliasRow => row.aliasText ≠ segmentAlias) = true then
      rows ++ [⟨segmentAlias, false⟩]
    else rows) rows

end LetAgents.Routing
