import LetAgents.Lib.Machine
import LetAgents.Lib.Table

/-!
# Calls that register a provider host

Source: src/src/api/rental/provider-hosts.ts:34-39, 131-275. The tables hold the rows of one
account and host. Between two statements of a call anything may happen.

Modelling boundary: the input of a call is what `normalizeHostInput` returns of it; a call that
it refuses makes no statement. The comparison of stored runtimes is a parameter.
-/
namespace LetAgents.Rental.ProviderHosts

open Lib

structure RentalHostRuntime where
  kind : String
  label : String
  authenticated : Bool
  permissionProfiles : Option (List String)
  modelLabels : Option (List String)
deriving DecidableEq

structure RentalProviderHostInput where
  installationId : String
  enabled : Bool
  maxConcurrentSessions : Nat
  defaultLrtLimit : Nat
  defaultTimeLimitMinutes : Nat
  manualAcceptRequired : Bool
  runtimes : List RentalHostRuntime
  daemonGeneration : Option Nat
  /-- `normalizeRuntimes` keeps one runtime of each kind. -/
  byKind : Table.Keyed RentalHostRuntime.kind runtimes
deriving DecidableEq

/-! ## Tables -/

structure HostRow where
  id : String
  installation_id : String
  enabled : Bool
  max_concurrent_sessions : Nat
  default_lrt_limit : Nat
  default_time_limit_minutes : Nat
  manual_accept_required : Bool
  runtimes : List RentalHostRuntime
  daemon_generation : Option Nat
  last_heartbeat_at : Nat
  created_at : Nat
  updated_at : Nat

inductive ListingStatus where
  | active
  | paused
  | disabled
  | setup_required

structure Listing where
  id : String
  provider_host_id : String
  display_name : String
  status : ListingStatus
  ide_kind : String
  model_label : Option String
  max_concurrent_sessions : Nat
  default_lrt_limit : Nat
  default_time_limit_minutes : Nat
  manual_accept_required : Bool
  created_at : Nat
  updated_at : Nat

structure Database where
  hosts : List HostRow
  listings : List Listing

/-! ## Statements -/

def canAcceptRentalDaemonGeneration (current incoming : Option Nat) : Bool :=
  current.all fun generation => incoming.any (generation ≤ ·)

/-- `values(...)` -/
def newHost (input : RentalProviderHostInput) (id : String) (now : Nat) : HostRow where
  id := id
  installation_id := input.installationId
  enabled := input.enabled
  max_concurrent_sessions := input.maxConcurrentSessions
  default_lrt_limit := input.defaultLrtLimit
  default_time_limit_minutes := input.defaultTimeLimitMinutes
  manual_accept_required := input.manualAcceptRequired
  runtimes := input.runtimes
  daemon_generation := input.daemonGeneration
  last_heartbeat_at := now
  created_at := now
  updated_at := now

/-- `onConflictDoUpdate({ set })` -/
def HostRow.set (row : HostRow) (input : RentalProviderHostInput) (now : Nat) : HostRow :=
  { newHost input row.id now with created_at := row.created_at }

/-- `setWhere` -/
def setWhere (row : HostRow) (input : RentalProviderHostInput) : Bool :=
  match input.daemonGeneration with
  | none => row.daemon_generation.isNone
  | some generation => row.daemon_generation.all (· ≤ generation)

def Database.host (db : Database) (installationId : String) : Option HostRow :=
  Table.find HostRow.installation_id installationId db.hosts

/-- The upsert, and the row that it returns. -/
def Database.upsert (db : Database) (input : RentalProviderHostInput) (id : String) (now : Nat) :
    Database × Option HostRow :=
  match db.host input.installationId with
  | none => ({ db with hosts := db.hosts ++ [newHost input id now] }, some (newHost input id now))
  | some row =>
    if setWhere row input then
      ({ db with hosts := Table.put HostRow.installation_id (row.set input now) db.hosts },
        some (row.set input now))
    else (db, none)

/-- The ids of the rows of the other installations. -/
def Database.superseded (db : Database) (input : RentalProviderHostInput) : List String :=
  (db.hosts.filter fun row => row.installation_id ≠ input.installationId).map HostRow.id

def HostRow.disable (row : HostRow) (ids : List String) (now : Nat) : HostRow :=
  if row.id ∈ ids then { row with enabled := false, updated_at := now } else row

def Listing.pause (listing : Listing) (now : Nat) : Listing := { listing with status := .paused, updated_at := now }

def Database.disable (db : Database) (ids : List String) (now : Nat) : Database :=
  { db with hosts := db.hosts.map (·.disable ids now) }

/-- The listings that are chosen are paused. -/
def Database.pause (db : Database) (chosen : Listing → Bool) (now : Nat) : Database :=
  { db with listings := db.listings.map fun listing => if chosen listing then listing.pause now else listing }

def offeredStatus (host : HostRow) : ListingStatus := if host.enabled then .active else .paused

def Listing.offer (listing : Listing) (host : HostRow) (runtime : RentalHostRuntime) (now : Nat) :
    Listing :=
  { listing with
    display_name := runtime.label
    model_label := runtime.modelLabels.bind List.head?
    status := offeredStatus host
    default_lrt_limit := host.default_lrt_limit
    default_time_limit_minutes := host.default_time_limit_minutes
    manual_accept_required := host.manual_accept_required
    max_concurrent_sessions := host.max_concurrent_sessions
    updated_at := now }

def newListing (host : HostRow) (runtime : RentalHostRuntime) (id : String) (now : Nat) : Listing where
  id := id
  provider_host_id := host.id
  display_name := runtime.label
  status := offeredStatus host
  ide_kind := runtime.kind
  model_label := runtime.modelLabels.bind List.head?
  max_concurrent_sessions := host.max_concurrent_sessions
  default_lrt_limit := host.default_lrt_limit
  default_time_limit_minutes := host.default_time_limit_minutes
  manual_accept_required := host.manual_accept_required
  created_at := now
  updated_at := now

def Database.offersOf (db : Database) (host : HostRow) : List Listing :=
  db.listings.filter (·.provider_host_id = host.id)

/-- `new Map(existing.map(...))`: the last listing of each kind. -/
def existingByKind : List Listing → List Listing
  | [] => []
  | listing :: more =>
    if more.any (·.ide_kind = listing.ide_kind) then existingByKind more
    else listing :: existingByKind more

/-! ## Calls -/

/-- Where a call is: which statement is its next one. -/
inductive Stage where
  | requested (input : RentalProviderHostInput) (heartbeat : Bool)
  | checked (input : RentalProviderHostInput) (syncOffers : Bool)
  | upserted (input : RentalProviderHostInput) (host : HostRow) (syncOffers : Bool)
  | superseding (input : RentalProviderHostInput) (host : HostRow) (syncOffers : Bool) (ids : List String)
  | pausing (input : RentalProviderHostInput) (host : HostRow) (syncOffers : Bool) (ids : List String)
  | syncing (input : RentalProviderHostInput) (host : HostRow)
  | offering (input : RentalProviderHostInput) (host : HostRow) (runtimes : List RentalHostRuntime)
      (byKind : List Listing)
  | staling (input : RentalProviderHostInput) (host : HostRow) (staleIds : List String)
  | returned (host : HostRow)
  /-- `stale_daemon_generation` -/
  | failed

def settingsChanged (sameRuntimes : List RentalHostRuntime → List RentalHostRuntime → Bool)
    (existing : HostRow) (input : RentalProviderHostInput) : Bool :=
  existing.enabled ≠ input.enabled ||
    existing.max_concurrent_sessions ≠ input.maxConcurrentSessions ||
    existing.default_lrt_limit ≠ input.defaultLrtLimit ||
    existing.default_time_limit_minutes ≠ input.defaultTimeLimitMinutes ||
    existing.manual_accept_required ≠ input.manualAcceptRequired ||
    !sameRuntimes existing.runtimes input.runtimes

/-- `heartbeatRentalProviderHost` up to its upsert. -/
def heartbeat (sameRuntimes : List RentalHostRuntime → List RentalHostRuntime → Bool) (db : Database)
    (input : RentalProviderHostInput) : Stage :=
  match db.host input.installationId with
  | none => .checked input true
  | some existing =>
    if canAcceptRentalDaemonGeneration existing.daemon_generation input.daemonGeneration then
      .checked input (settingsChanged sameRuntimes existing input)
    else .failed

def upsertRentalProviderHost (db : Database) (input : RentalProviderHostInput) (syncOffers : Bool)
    (id : String) (now : Nat) : Database × Stage :=
  let upsert := db.upsert input id now
  (upsert.1, upsert.2.elim .failed fun host => .upserted input host syncOffers)

def afterSuperseded (input : RentalProviderHostInput) (host : HostRow) (syncOffers : Bool) : Stage :=
  if syncOffers then .syncing input host else .returned host

def nextOffer (input : RentalProviderHostInput) (host : HostRow) (byKind : List Listing) :
    List RentalHostRuntime → Stage
  | runtime :: more => .offering input host (runtime :: more) byKind
  | [] => if byKind = [] then .returned host else .staling input host (byKind.map Listing.id)

def offerRuntime (db : Database) (input : RentalProviderHostInput) (host : HostRow)
    (runtime : RentalHostRuntime) (more : List RentalHostRuntime) (byKind : List Listing) (id : String)
    (now : Nat) : Database × Stage :=
  match byKind.find? (·.ide_kind = runtime.kind) with
  | some listing =>
    ({ db with listings := Table.update Listing.id listing.id (·.offer host runtime now) db.listings },
      nextOffer input host (byKind.filter (·.ide_kind ≠ runtime.kind)) more)
  | none =>
    ({ db with listings := db.listings ++ [newListing host runtime id now] },
      nextOffer input host byKind more)

/-- The next statement of a call, with a new id and the time. -/
def act (sameRuntimes : List RentalHostRuntime → List RentalHostRuntime → Bool) (db : Database) (id : String)
    (now : Nat) : Stage → Database × Stage
  | .requested input true => (db, heartbeat sameRuntimes db input)
  | .requested input false => upsertRentalProviderHost db input true id now
  | .checked input syncOffers => upsertRentalProviderHost db input syncOffers id now
  | .upserted input host syncOffers =>
    let ids := db.superseded input
    (db, if ids = [] then afterSuperseded input host syncOffers else .superseding input host syncOffers ids)
  | .superseding input host syncOffers ids => (db.disable ids host.updated_at, .pausing input host syncOffers ids)
  | .pausing input host syncOffers ids =>
    (db.pause (·.provider_host_id ∈ ids) host.updated_at, afterSuperseded input host syncOffers)
  | .syncing input host =>
    (db, nextOffer input host (existingByKind (db.offersOf host)) (input.runtimes.filter (·.authenticated)))
  | .offering input host [] byKind => (db, nextOffer input host byKind [])
  | .offering input host (runtime :: more) byKind => offerRuntime db input host runtime more byKind id now
  | .staling _ host staleIds => (db.pause (·.id ∈ staleIds) now, .returned host)
  | .returned host => (db, .returned host)
  | .failed => (db, .failed)

structure State where
  db : Database
  calls : List Stage
  /-- The input of the upsert that committed last. -/
  last : Option RentalProviderHostInput

inductive Input where
  | call (input : RentalProviderHostInput) (heartbeat : Bool)
  | go (k : Nat) (id : String) (now : Nat)

def Stage.commits : Stage → Option RentalProviderHostInput
  | .upserted input _ _ => some input
  | _ => none

def Database.ids (db : Database) : List String := db.hosts.map HostRow.id ++ db.listings.map Listing.id

/-- No id is given twice. -/
def step (sameRuntimes : List RentalHostRuntime → List RentalHostRuntime → Bool) (s : State) : Input → State
  | .call input heartbeat => { s with calls := s.calls ++ [.requested input heartbeat] }
  | .go k id now =>
    match s.calls[k]? with
    | none => s
    | some stage =>
      if id ∈ s.db.ids then s
      else
        let next := act sameRuntimes s.db id now stage
        ⟨next.1, s.calls.set k next.2, next.2.commits.or s.last⟩

def initial : State := ⟨⟨[], []⟩, [], none⟩

end LetAgents.Rental.ProviderHosts
