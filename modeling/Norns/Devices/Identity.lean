import Norns.Coordinator.EventProcessor
import Norns.Devices.PublicationPermits
import Norns.Inference.Pricing
import Norns.Lib.OrdMap
import Norns.Lib.Run
import Norns.Lib.Transaction

/-! # The identities of devices

A device is enrolled with a code that it polls with and a code that its owner approves (`devices/service.ts`,
`repository.ts`), it is revoked by its owner (`revocation.ts`), and its credential is checked for each connection and
request (`wssAuthentication.ts`, `execution/deviceHttpAuth.ts`). The rows of the tables meet the constraints of
migration 0053; its triggers and indexes are checked by each write. The keyed hashes of codes, the fingerprints of keys
and the verification of signatures are given.

* `RequestGuarded`: what the trigger lets an update of a request change;
* `createAuthorization`, `approve`, `deny`, `poll`, `redeem`: the services of enrollment;
* `revoke`, `authenticate`, `consumeRequestId`: the services of what is enrolled. -/

namespace Norns.Devices.Identity

open Norns.Lib Norns.Lib.Run Norns.Lib.Transaction
open Norns.Devices.PublicationPermits (DeviceIdentity)

/-! ### Keys and codes -/

def isHex (c : Char) : Bool := ('0' ≤ c && c ≤ '9') || ('a' ≤ c && c ≤ 'f')

/-- `CanonicalDevicePublicKey` -/
structure CanonicalDevicePublicKey where
  canonical_spki_der : List UInt8
  fingerprint : String
  der_nonempty : canonical_spki_der ≠ []
  fingerprint_hex : fingerprint.length = 64 ∧ fingerprint.toList.all isHex = true
  deriving DecidableEq

/-- `HashedEnrollmentCode` -/
structure HashedEnrollmentCode where
  version : ℕ
  key_id : String
  keyed_hash : List UInt8
  version_pos : 0 < version
  key_id_nonempty : key_id ≠ ""
  hash_length : keyed_hash.length = 32

instance : DecidableEq HashedEnrollmentCode := fun a b =>
  decidable_of_iff (a.version = b.version ∧ a.key_id = b.key_id ∧ a.keyed_hash = b.keyed_hash) (by
    cases a
    cases b
    simp)

def deviceCodeChar (c : Char) : Bool := c.isAlphanum || c = '_' || c = '-'

/-- The value of a character of base64url. -/
def base64urlValue (c : Char) : ℕ :=
  if 'A' ≤ c ∧ c ≤ 'Z' then c.toNat - 65
  else if 'a' ≤ c ∧ c ≤ 'z' then c.toNat - 71
  else if '0' ≤ c ∧ c ≤ '9' then c.toNat + 4
  else if c = '-' then 62
  else 63

/-- `isValidDeviceCode`: 32 bytes, without bits that are left over. -/
def isValidDeviceCode (input : String) : Bool :=
  decide (input.length = 43) && input.toList.all deviceCodeChar &&
    input.toList.getLast?.all fun c => decide (base64urlValue c % 4 = 0)

/-! ### Rows -/

/-- `DeviceAuthorizationRequestState` -/
inductive AuthorizationState
  | pending | approved_pending_redemption | active | denied | expired
  deriving DecidableEq, Repr

/-- The requests that are still open. -/
def AuthorizationState.live : AuthorizationState → Bool
  | .pending | .approved_pending_redemption => true
  | .active | .denied | .expired => false

/-- `DEVICE_AUTHORIZATION_TRANSITIONS` -/
def AuthorizationState.transitions : AuthorizationState → List AuthorizationState
  | .pending => [.approved_pending_redemption, .denied, .expired]
  | .approved_pending_redemption => [.active, .denied, .expired]
  | .active | .denied | .expired => []

/-- `DeviceOsFamily` -/
inductive OsFamily
  | macos | windows | linux | other
  deriving DecidableEq, Repr

/-- A row of `device_authorization_requests`; times are milliseconds. -/
structure AuthorizationRow where
  id : String
  state : AuthorizationState
  key : CanonicalDevicePublicKey
  proposed_name : String
  os_family : OsFamily
  architecture : String
  device_code_hash : HashedEnrollmentCode
  user_code_hash : HashedEnrollmentCode
  poll_interval_seconds : ℕ
  effective_poll_interval_seconds : ℕ
  slow_down_count : ℕ := 0
  poll_attempt_count : ℕ := 0
  last_polled_at : Option ℤ := none
  next_poll_at : ℤ
  expires_at : ℤ
  approved_by_user_id : Option String := none
  approved_at : Option ℤ := none
  denied_by_user_id : Option String := none
  denied_at : Option ℤ := none
  expired_at : Option ℤ := none
  redeemed_at : Option ℤ := none
  redeemed_device_id : Option String := none
  redeemed_credential_id : Option String := none
  redeemed_generation : Option ℕ := none
  redemption_result_expires_at : Option ℤ := none
  created_at : ℤ
  deriving DecidableEq

/-- `btrim(text) <> ''` -/
def notBlank (text : String) : Bool := text.toList.any fun c => c != ' '

/-- `device_authorization_requests_summary_check`; `devices` has the same for its texts. -/
def Summary (name architecture : String) : Prop :=
  notBlank name = true ∧ name.length ≤ 200 ∧ notBlank architecture = true ∧ architecture.length ≤ 100

/-- No column of a redemption is set. -/
def Unredeemed (row : AuthorizationRow) : Prop :=
  row.redeemed_at = none ∧ row.redeemed_device_id = none ∧ row.redeemed_credential_id = none ∧
    row.redeemed_generation = none ∧ row.redemption_result_expires_at = none

/-- Every column of a redemption is set. -/
def Redeemed (row : AuthorizationRow) : Prop :=
  row.redeemed_device_id.isSome ∧ row.redeemed_credential_id.isSome ∧ row.redeemed_generation.isSome ∧
    ∃ redeemed_at ∈ row.redeemed_at, ∃ expires_at ∈ row.redemption_result_expires_at, redeemed_at < expires_at

/-- `device_authorization_requests_state_shape_check` -/
def StateShape (row : AuthorizationRow) : Prop :=
  match row.state with
  | .pending => row.approved_by_user_id = none ∧ row.denied_by_user_id = none ∧ row.denied_at = none ∧
      row.expired_at = none ∧ Unredeemed row
  | .approved_pending_redemption => row.approved_by_user_id.isSome ∧ row.denied_by_user_id = none ∧
      row.denied_at = none ∧ row.expired_at = none ∧ Unredeemed row
  | .active => row.approved_by_user_id.isSome ∧ row.denied_by_user_id = none ∧ row.denied_at = none ∧
      row.expired_at = none ∧ Redeemed row
  | .denied => row.denied_by_user_id.isSome ∧ row.denied_at.isSome ∧ row.expired_at = none ∧ Unredeemed row
  | .expired => row.denied_by_user_id = none ∧ row.denied_at = none ∧ row.expired_at.isSome ∧ Unredeemed row

/-- The constraints of the table. -/
structure Checked (row : AuthorizationRow) : Prop where
  summary : Summary row.proposed_name row.architecture
  polling : 0 < row.poll_interval_seconds ∧
    row.poll_interval_seconds + row.slow_down_count * 5 ≤ row.effective_poll_interval_seconds
  expiry : row.created_at < row.expires_at
  approval_pair : row.approved_by_user_id.isSome = row.approved_at.isSome
  state_shape : StateShape row

instance (row : AuthorizationRow) : Decidable (Unredeemed row) := by unfold Unredeemed; infer_instance

instance (row : AuthorizationRow) : Decidable (Redeemed row) := by unfold Redeemed; infer_instance

instance (row : AuthorizationRow) : Decidable (StateShape row) := by
  unfold StateShape; cases row.state <;> exact inferInstanceAs (Decidable (_ ∧ _))

instance (name architecture : String) : Decidable (Summary name architecture) := by
  unfold Summary; infer_instance

instance (row : AuthorizationRow) : Decidable (Checked row) :=
  decidable_of_iff (Summary row.proposed_name row.architecture ∧ (0 < row.poll_interval_seconds ∧
      row.poll_interval_seconds + row.slow_down_count * 5 ≤ row.effective_poll_interval_seconds) ∧
      row.created_at < row.expires_at ∧ row.approved_by_user_id.isSome = row.approved_at.isSome ∧ StateShape row)
    ⟨fun h => ⟨h.1, h.2.1, h.2.2.1, h.2.2.2.1, h.2.2.2.2⟩,
      fun h => ⟨h.summary, h.polling, h.expiry, h.approval_pair, h.state_shape⟩⟩

/-- A row that was written. -/
structure StoredRequest extends AuthorizationRow where
  checked : Checked toAuthorizationRow

/-- `norns_guard_device_authorization_request` -/
structure RequestGuarded (old new : AuthorizationRow) : Prop where
  key : new.key = old.key
  device_code_hash : new.device_code_hash = old.device_code_hash
  user_code_hash : new.user_code_hash = old.user_code_hash
  created_at : new.created_at = old.created_at
  open_ : old.state.live = true
  state : new.state = old.state ∨ new.state ∈ old.state.transitions
  approval : old.state = .approved_pending_redemption →
    new.approved_by_user_id = old.approved_by_user_id ∧ new.approved_at = old.approved_at

instance (old new : AuthorizationRow) : Decidable (RequestGuarded old new) :=
  decidable_of_iff (new.key = old.key ∧ new.device_code_hash = old.device_code_hash ∧
      new.user_code_hash = old.user_code_hash ∧ new.created_at = old.created_at ∧ old.state.live = true ∧
      (new.state = old.state ∨ new.state ∈ old.state.transitions) ∧
      (old.state = .approved_pending_redemption →
        new.approved_by_user_id = old.approved_by_user_id ∧ new.approved_at = old.approved_at))
    ⟨fun h => ⟨h.1, h.2.1, h.2.2.1, h.2.2.2.1, h.2.2.2.2.1, h.2.2.2.2.2.1, h.2.2.2.2.2.2⟩,
      fun h => ⟨h.key, h.device_code_hash, h.user_code_hash, h.created_at, h.open_, h.state, h.approval⟩⟩

/-- The lifecycle of a device, and of a credential. -/
inductive Lifecycle
  | active | revoked
  deriving DecidableEq, Repr

/-- A row of `devices`. -/
structure DeviceRow where
  owner_user_id : Option String
  display_name : String
  os_family : OsFamily
  architecture : String
  lifecycle : Lifecycle
  current_generation : ℕ
  revoked_at : Option ℤ
  created_at : ℤ
  deriving DecidableEq

/-- The constraints of `devices`. -/
structure DeviceChecked (row : DeviceRow) : Prop where
  name : notBlank row.display_name = true
  architecture : notBlank row.architecture = true ∧ row.architecture.length ≤ 100
  active_owner : row.lifecycle = .active → row.owner_user_id.isSome = true
  lifecycle_shape : row.lifecycle = .active ↔ row.revoked_at = none

instance (row : DeviceRow) : Decidable (DeviceChecked row) :=
  decidable_of_iff (notBlank row.display_name = true ∧ (notBlank row.architecture = true ∧
      row.architecture.length ≤ 100) ∧ (row.lifecycle = .active → row.owner_user_id.isSome = true) ∧
      (row.lifecycle = .active ↔ row.revoked_at = none))
    ⟨fun h => ⟨h.1, h.2.1, h.2.2.1, h.2.2.2⟩,
      fun h => ⟨h.name, h.architecture, h.active_owner, h.lifecycle_shape⟩⟩

structure StoredDevice extends DeviceRow where
  checked : DeviceChecked toDeviceRow

/-- `norns_guard_device_monotonicity` -/
def DeviceGuarded (old new : DeviceRow) : Prop :=
  new.owner_user_id = old.owner_user_id ∧ (old.lifecycle = .revoked → new.lifecycle = .revoked) ∧
    old.current_generation ≤ new.current_generation

instance (old new : DeviceRow) : Decidable (DeviceGuarded old new) := by unfold DeviceGuarded; infer_instance

/-- A row of `device_credentials`. -/
structure CredentialRow where
  device_id : String
  generation : ℕ
  key : CanonicalDevicePublicKey
  state : Lifecycle
  activated_at : ℤ
  revoked_at : Option ℤ
  deriving DecidableEq

/-- The constraints of `device_credentials`. -/
structure CredentialChecked (row : CredentialRow) : Prop where
  generation : 0 < row.generation
  state_shape : row.state = .active ↔ row.revoked_at = none

instance (row : CredentialRow) : Decidable (CredentialChecked row) :=
  decidable_of_iff (0 < row.generation ∧ (row.state = .active ↔ row.revoked_at = none))
    ⟨fun h => ⟨h.1, h.2⟩, fun h => ⟨h.generation, h.state_shape⟩⟩

structure StoredCredential extends CredentialRow where
  checked : CredentialChecked toCredentialRow

/-- A row of `device_revocations`. -/
structure RevocationRow where
  revoked_by_user_id : String
  previous_generation : ℕ
  fenced_generation : ℕ
  reason : String
  revoked_at : ℤ
  deriving DecidableEq

/-- A row of `device_http_request_replays`. -/
structure ReplayRow where
  /-- A device, or a runner of before. -/
  legacy : Bool
  identity : DeviceIdentity
  purpose : String
  request_timestamp : ℤ
  consumed_at : ℤ
  deriving DecidableEq

inductive IdentityError
  /-- A trigger. -/
  | raised
  /-- A constraint, an index or a foreign key. -/
  | constraint
  /-- "device authorization redemption lost its locked request" -/
  | lost_request
  | invalid_device_metadata
  | revocation_not_authorized | device_not_found | active_credential_missing | revocation_record_missing
  | cancellation_scope_conflict
  deriving DecidableEq, Repr

structure Database where
  /-- The users, and whether their status is active. -/
  users : OrdMap String Bool
  requests : OrdMap String StoredRequest
  devices : OrdMap String StoredDevice
  credentials : OrdMap String StoredCredential
  revocations : OrdMap String RevocationRow
  replays : OrdMap String ReplayRow

/-! ### Writes -/

def store (row : AuthorizationRow) : Except IdentityError StoredRequest :=
  if h : Checked row then .ok ⟨row, h⟩ else .error .constraint

/-- The foreign keys of a request. -/
def Database.References (db : Database) (row : AuthorizationRow) : Prop :=
  (∀ user ∈ row.approved_by_user_id, db.users.has user = true) ∧
    (∀ user ∈ row.denied_by_user_id, db.users.has user = true) ∧
    (∀ device_id ∈ row.redeemed_device_id, ∀ owner ∈ row.approved_by_user_id,
      ∃ device ∈ db.devices.get? device_id, device.owner_user_id = some owner) ∧
    ∀ device_id ∈ row.redeemed_device_id, ∀ credential_id ∈ row.redeemed_credential_id,
      ∀ generation ∈ row.redeemed_generation, ∃ credential ∈ db.credentials.get? credential_id,
        credential.device_id = device_id ∧ credential.generation = generation ∧
          credential.key.fingerprint = row.key.fingerprint

instance (db : Database) (row : AuthorizationRow) : Decidable (db.References row) := by
  unfold Database.References; infer_instance

/-- An `UPDATE` of a request. Its indexes lose a row, or keep it: the codes and the key stay. -/
def Database.updateRequest (db : Database) (old : StoredRequest) (new : AuthorizationRow) :
    Except IdentityError (StoredRequest × Database) := do
  refuse (¬ RequestGuarded old.toAuthorizationRow new) .raised
  let stored ← store new
  refuse (¬ db.References new) .constraint
  return (stored, { db with requests := db.requests.set old.id stored })

/-- An `INSERT INTO devices`. -/
def Database.insertDevice (db : Database) (id : String) (row : DeviceRow) : Except IdentityError Database := do
  refuse (db.devices.has id = true ∨ ∃ owner ∈ row.owner_user_id, db.users.has owner = false) .constraint
  if h : DeviceChecked row then return { db with devices := db.devices.set id ⟨row, h⟩ } else .error .constraint

/-- An `UPDATE devices`. -/
def Database.updateDevice (db : Database) (id : String) (old : StoredDevice) (new : DeviceRow) :
    Except IdentityError Database := do
  refuse (¬ DeviceGuarded old.toDeviceRow new) .raised
  if h : DeviceChecked new then return { db with devices := db.devices.set id ⟨new, h⟩ } else .error .constraint

/-- The unique indexes of `device_credentials`. -/
def Database.CredentialUnique (db : Database) (id : String) (row : CredentialRow) : Prop :=
  db.credentials.has id = false ∧ ∀ other ∈ db.credentials.values,
    other.key.fingerprint ≠ row.key.fingerprint ∧
      ¬ (other.device_id = row.device_id ∧ other.generation = row.generation) ∧
      ¬ (other.device_id = row.device_id ∧ other.state = .active ∧ row.state = .active)

instance (db : Database) (id : String) (row : CredentialRow) : Decidable (db.CredentialUnique id row) := by
  unfold Database.CredentialUnique; infer_instance

/-- An `INSERT INTO device_credentials`; its trigger advances the generation of the device. -/
def Database.insertCredential (db : Database) (id : String) (row : CredentialRow) :
    Except IdentityError Database :=
  match db.devices.get? row.device_id with
  | none => .error .raised
  | some device => do
    refuse (row.generation ≤ device.current_generation) .raised
    let db ← db.updateDevice row.device_id device
      { device.toDeviceRow with current_generation := row.generation }
    refuse (¬ db.CredentialUnique id row) .constraint
    if h : CredentialChecked row then return { db with credentials := db.credentials.set id ⟨row, h⟩ }
    else .error .constraint

/-- A revoked credential. -/
def StoredCredential.revoke (credential : StoredCredential) (revoked_at : ℤ) : StoredCredential :=
  ⟨{ credential.toCredentialRow with state := .revoked, revoked_at := some revoked_at },
    ⟨credential.checked.generation, by simp⟩⟩

/-! ### Enrollment -/

/-- A request that has expired. -/
def StoredRequest.expired (row : StoredRequest) (now : ℤ) : AuthorizationRow :=
  { row.toAuthorizationRow with state := .expired, expired_at := some now }

/-- `expireIfDue` -/
def Database.expireIfDue (db : Database) (row : StoredRequest) (now : ℤ) :
    Except IdentityError (StoredRequest × Database) :=
  if row.state.live = false ∨ now < row.expires_at then .ok (row, db)
  else db.updateRequest row (row.expired now)

structure EnrollmentOptions where
  authorizationTtlMs : ℤ
  redemptionResultTtlMs : ℤ
  initialPollIntervalSeconds : ℕ
  ttl_pos : 0 < authorizationTtlMs
  result_ttl_pos : 0 < redemptionResultTtlMs
  interval_pos : 0 < initialPollIntervalSeconds

structure CreateInput where
  authorization_request_id : String
  device_code_hash : HashedEnrollmentCode
  human_code_hash : HashedEnrollmentCode
  key : CanonicalDevicePublicKey
  proposed_name : String
  os_family : OsFamily
  architecture : String
  issued_at : ℤ

/-- `CreatedDeviceAuthorizationRecord` -/
structure CreatedAuthorization where
  authorization_request_id : String
  expires_at : ℤ
  poll_interval_seconds : ℕ
  deriving DecidableEq, Repr

/-- The row of a new request. -/
def CreateInput.row (options : EnrollmentOptions) (input : CreateInput) (proposedName architecture : String) :
    AuthorizationRow where
  id := input.authorization_request_id
  state := .pending
  key := input.key
  proposed_name := proposedName
  os_family := input.os_family
  architecture := architecture
  device_code_hash := input.device_code_hash
  user_code_hash := input.human_code_hash
  poll_interval_seconds := options.initialPollIntervalSeconds
  effective_poll_interval_seconds := options.initialPollIntervalSeconds
  next_poll_at := input.issued_at
  expires_at := input.issued_at + options.authorizationTtlMs
  created_at := input.issued_at

/-- The row of a key that is still open; the index allows one. -/
def Database.liveKey (db : Database) (fingerprint : String) : Option StoredRequest :=
  db.requests.values.find? fun row => row.state.live = true ∧ row.key.fingerprint = fingerprint

/-- The requests of a key that are due are expired. -/
def Database.expireKey (db : Database) (fingerprint : String) (now : ℤ) : Except IdentityError Database :=
  match db.liveKey fingerprint with
  | none => .ok db
  | some row => Prod.snd <$> db.expireIfDue row now

/-- The unique indexes of `device_authorization_requests`. -/
def Database.RequestUnique (db : Database) (row : AuthorizationRow) : Prop :=
  db.requests.has row.id = false ∧ ∀ other ∈ db.requests.values,
    other.device_code_hash ≠ row.device_code_hash ∧
      ¬ (other.state.live = true ∧ other.user_code_hash = row.user_code_hash) ∧
      ¬ (other.state.live = true ∧ other.key.fingerprint = row.key.fingerprint)

instance (db : Database) (row : AuthorizationRow) : Decidable (db.RequestUnique row) := by
  unfold Database.RequestUnique; infer_instance

/-- The insertion of a request, where the key has no credential; a conflict does nothing. -/
def Database.insertRequest (db : Database) (row : AuthorizationRow) : Except IdentityError (Bool × Database) :=
  if ∃ credential ∈ db.credentials.values, credential.key.fingerprint = row.key.fingerprint then .ok (false, db)
  else do
    let stored ← store row
    if db.RequestUnique row then return (true, { db with requests := db.requests.set row.id stored })
    else return (false, db)

/-- The request is the one of an earlier attempt. -/
def SameRequest (row new : AuthorizationRow) : Prop :=
  row.key = new.key ∧ row.device_code_hash = new.device_code_hash ∧ row.user_code_hash = new.user_code_hash ∧
    row.proposed_name = new.proposed_name ∧ row.os_family = new.os_family ∧ row.architecture = new.architecture ∧
    row.state ∈ [AuthorizationState.pending, .approved_pending_redemption, .active]

instance (row new : AuthorizationRow) : Decidable (SameRequest row new) := by unfold SameRequest; infer_instance

/-- `createAuthorization` of the repository. -/
def Database.createAuthorization (db : Database) (row : AuthorizationRow) :
    Except IdentityError (Option CreatedAuthorization × Database) := do
  let db ← db.expireKey row.key.fingerprint row.created_at
  let (inserted, db) ← db.insertRequest row
  if inserted then return (some ⟨row.id, row.expires_at, row.poll_interval_seconds⟩, db)
  else return ((db.requests.values.find? fun other => SameRequest other.toAuthorizationRow row).map fun other =>
    ⟨other.id, other.expires_at, other.effective_poll_interval_seconds⟩, db)

/-- `createAuthorization`; without an answer it throws "authorization_not_available", after the transaction. -/
def createAuthorization (options : EnrollmentOptions) (db : Database) (input : CreateInput) :
    Except IdentityError (Option CreatedAuthorization × Database) := do
  let proposedName := Coordinator.trim input.proposed_name
  let architecture := Coordinator.trim input.architecture
  refuse (proposedName = "" ∨ 200 < Inference.codeUnits proposedName ∨ architecture = "" ∨
    100 < Inference.codeUnits architecture) .invalid_device_metadata
  db.createAuthorization (input.row options proposedName architecture)

/-- `lookupByHumanCode` -/
def lookupByHumanCode (db : Database) (human_code_hash : HashedEnrollmentCode) (now : ℤ) :
    Except IdentityError (Option StoredRequest × Database) :=
  match db.requests.values.find? fun row => row.state = .pending ∧ row.user_code_hash = human_code_hash with
  | none => .ok (none, db)
  | some selected => do
    let (current, db) ← db.expireIfDue selected now
    return (if current.state = .pending then some current else none, db)

/-- `getDecisionCandidate` -/
def getDecisionCandidate (db : Database) (authorization_request_id : String) (now : ℤ) :
    Except IdentityError (Option StoredRequest × Database) :=
  match db.requests.get? authorization_request_id with
  | none => .ok (none, db)
  | some selected => do
    let (current, db) ← db.expireIfDue selected now
    return (if current.state.live = true then some current else none, db)

/-- `getOwnedAuthorization` -/
def getOwnedAuthorization (db : Database) (authorization_request_id owner_user_id : String) (now : ℤ) :
    Except IdentityError (Option StoredRequest × Database) :=
  match db.requests.get? authorization_request_id with
  | none => .ok (none, db)
  | some selected =>
    if selected.approved_by_user_id ≠ some owner_user_id then .ok (none, db)
    else do
      let (current, db) ← db.expireIfDue selected now
      return (some current, db)

/-- The request with the code that was looked up. -/
def Database.decided (db : Database) (authorization_request_id : String) (human_code_hash : HashedEnrollmentCode) :
    Option StoredRequest :=
  (db.requests.get? authorization_request_id).filter fun row => row.user_code_hash = human_code_hash

/-- A request that is approved. -/
def StoredRequest.approved (row : StoredRequest) (owner_user_id : String) (now : ℤ) : AuthorizationRow :=
  { row.toAuthorizationRow with
    state := .approved_pending_redemption
    approved_by_user_id := some owner_user_id
    approved_at := some now }

/-- A request that is denied. -/
def StoredRequest.denied (row : StoredRequest) (denied_by_user_id : String) (now : ℤ) : AuthorizationRow :=
  { row.toAuthorizationRow with
    state := .denied
    denied_by_user_id := some denied_by_user_id
    denied_at := some now }

/-- `approve` of the repository. -/
def approve (db : Database) (authorization_request_id : String) (human_code_hash : HashedEnrollmentCode)
    (owner_user_id : String) (now : ℤ) : Except IdentityError (Option StoredRequest × Database) :=
  match db.decided authorization_request_id human_code_hash with
  | none => .ok (none, db)
  | some selected =>
    if db.users.get? owner_user_id ≠ some true then .ok (none, db)
    else do
      let (row, db) ← db.expireIfDue selected now
      if row.state = .approved_pending_redemption then
        return (if row.approved_by_user_id = some owner_user_id then some row else none, db)
      else if row.state ≠ .pending then return (none, db)
      else do
        let (approved, db) ← db.updateRequest row (row.approved owner_user_id now)
        return (some approved, db)

/-- `deny` of the repository. -/
def deny (db : Database) (authorization_request_id : String) (human_code_hash : HashedEnrollmentCode)
    (denied_by_user_id : String) (now : ℤ) : Except IdentityError (Option StoredRequest × Database) :=
  match db.decided authorization_request_id human_code_hash with
  | none => .ok (none, db)
  | some selected =>
    if db.users.get? denied_by_user_id ≠ some true ∨
        (selected.approved_by_user_id ≠ none ∧ selected.approved_by_user_id ≠ some denied_by_user_id) then
      .ok (none, db)
    else do
      let (row, db) ← db.expireIfDue selected now
      if row.state = .denied then return (some row, db)
      else if row.state.live = false then return (none, db)
      else do
        let (denied, db) ← db.updateRequest row (row.denied denied_by_user_id now)
        return (some denied, db)

/-- The answers of `poll`. -/
inductive PollAnswer
  | not_found | expired_token | access_denied
  | authorization_pending (retry_after_seconds : ℕ)
  | slow_down (retry_after_seconds : ℕ)
  | approved_pending_redemption (record : StoredRequest)
  | active (record : StoredRequest)

/-- A poll that comes too early, and one that does not. -/
def StoredRequest.polled (row : StoredRequest) (now : ℤ) : AuthorizationRow :=
  if now < row.next_poll_at then
    { row.toAuthorizationRow with
      effective_poll_interval_seconds := row.effective_poll_interval_seconds + 5
      slow_down_count := row.slow_down_count + 1
      poll_attempt_count := row.poll_attempt_count + 1
      last_polled_at := some now
      next_poll_at := now + (row.effective_poll_interval_seconds + 5) * 1000 }
  else
    { row.toAuthorizationRow with
      poll_attempt_count := row.poll_attempt_count + 1
      last_polled_at := some now
      next_poll_at := now + row.effective_poll_interval_seconds * 1000 }

/-- `poll` of the repository. -/
def poll (db : Database) (device_code_hash : HashedEnrollmentCode) (now : ℤ) :
    Except IdentityError (PollAnswer × Database) :=
  match db.requests.values.find? fun row => row.device_code_hash = device_code_hash with
  | none => .ok (.not_found, db)
  | some selected => do
    let (row, db) ← db.expireIfDue selected now
    match row.state with
    | .expired => return (.expired_token, db)
    | .denied => return (.access_denied, db)
    | .active => return (.active row, db)
    | .pending => do
      let (polled, db) ← db.updateRequest row (row.polled now)
      if now < row.next_poll_at then return (.slow_down polled.effective_poll_interval_seconds, db)
      else return (.authorization_pending polled.effective_poll_interval_seconds, db)
    | .approved_pending_redemption => do
      let (polled, db) ← db.updateRequest row (row.polled now)
      if now < row.next_poll_at then return (.slow_down polled.effective_poll_interval_seconds, db)
      else return (.approved_pending_redemption polled, db)

/-- A redemption that `poll` of the service asks for, with its proof verified. -/
structure Redemption where
  authorization_request_id : String
  device_code_hash : HashedEnrollmentCode
  public_key_fingerprint : String

structure RedeemInput extends Redemption where
  device_id : String
  credential_id : String
  now : ℤ
  redemption_result_expires_at : ℤ

inductive RedeemAnswer
  | access_denied | expired_token
  | active (identity : DeviceIdentity)
  deriving DecidableEq, Repr

/-- The device of a request. -/
def StoredRequest.device (row : StoredRequest) (owner_user_id : String) (now : ℤ) : DeviceRow where
  owner_user_id := some owner_user_id
  display_name := row.proposed_name
  os_family := row.os_family
  architecture := row.architecture
  lifecycle := .active
  current_generation := 0
  revoked_at := none
  created_at := now

/-- The credential of a request. -/
def StoredRequest.credential (row : StoredRequest) (device_id : String) (now : ℤ) : CredentialRow where
  device_id := device_id
  generation := 1
  key := row.key
  state := .active
  activated_at := now
  revoked_at := none

/-- A request that is redeemed. -/
def StoredRequest.redeemed (row : StoredRequest) (input : RedeemInput) : AuthorizationRow :=
  { row.toAuthorizationRow with
    state := .active
    redeemed_at := some input.now
    redeemed_device_id := some input.device_id
    redeemed_credential_id := some input.credential_id
    redeemed_generation := some 1
    redemption_result_expires_at := some input.redemption_result_expires_at }

/-- The device, its credential, and the request that they were redeemed for. -/
def Database.activate (db : Database) (row : StoredRequest) (owner_user_id : String) (input : RedeemInput) :
    Except IdentityError Database := do
  let db ← db.insertDevice input.device_id (row.device owner_user_id input.now)
  let db ← db.insertCredential input.credential_id (row.credential input.device_id input.now)
  refuse (row.state ≠ .approved_pending_redemption) .lost_request
  let (_, db) ← db.updateRequest row (row.redeemed input)
  return db

/-- The identity that a request was redeemed for. -/
def StoredRequest.identity (row : StoredRequest) : Option DeviceIdentity :=
  match row.redeemed_device_id, row.redeemed_credential_id with
  | some device_id, some credential_id => some ⟨device_id, credential_id, row.redeemed_generation.getD 0⟩
  | _, _ => none

/-- `redeem` of the repository. -/
def redeem (db : Database) (input : RedeemInput) : Except IdentityError (RedeemAnswer × Database) :=
  match (db.requests.get? input.authorization_request_id).filter fun row =>
      row.device_code_hash = input.device_code_hash with
  | none => .ok (.access_denied, db)
  | some selected => do
    let (row, db) ← db.expireIfDue selected input.now
    if row.state = .expired then return (.expired_token, db)
    else if row.key.fingerprint ≠ input.public_key_fingerprint ∨ row.state = .denied ∨ row.state = .pending then
      return (.access_denied, db)
    else if row.state = .active then
      match row.identity with
      | none => return (.access_denied, db)
      | some identity => return (.active identity, db)
    else match row.approved_by_user_id with
      | none => return (.access_denied, db)
      | some owner => do
        let db ← db.activate row owner input
        return (.active ⟨input.device_id, input.credential_id, 1⟩, db)

/-! ### The poll of the service -/

section

variable (hashDeviceCode : String → HashedEnrollmentCode)
  (canonicalDevicePublicKey : String → Option CanonicalDevicePublicKey)
  (verifyEnrollmentProof : List UInt8 → String → String → Bool)

/-- A field of a proof. -/
def proofField (name value : String) : String := s!"{name}:{value.utf8ByteSize}:{value}\n"

/-- `enrollmentRedemptionProofPayload` -/
def enrollmentRedemptionProofPayload (authorization_request_id device_code public_key_fingerprint : String) : String :=
  "norns:device-enrollment-redemption:v1\n" ++ proofField "authorization_request_id" authorization_request_id ++
    proofField "device_code" device_code ++ proofField "public_key_fingerprint" public_key_fingerprint

/-- The input of `poll`. An empty key or signature is none too. -/
structure PollInput where
  device_code : String
  public_key_pem : Option String
  proof_signature_base64 : Option String

/-- What the service answers, or the redemption that it asks for. -/
inductive PollOutcome
  | access_denied | expired_token
  | authorization_pending (retry_after_seconds : ℕ)
  | slow_down (retry_after_seconds : ℕ)
  | approved_pending_redemption (authorization_request_id : String)
  | redeem (redemption : Redemption)

/-- The proof is one of the key that the request was made for. -/
def prove (input : PollInput) (record : StoredRequest) (public_key_pem proof_signature_base64 : String) :
    PollOutcome :=
  match canonicalDevicePublicKey public_key_pem with
  | none => .access_denied
  | some suppliedKey =>
    if suppliedKey.fingerprint ≠ record.key.fingerprint then .access_denied
    else if verifyEnrollmentProof record.key.canonical_spki_der
        (enrollmentRedemptionProofPayload record.id input.device_code record.key.fingerprint)
        proof_signature_base64 = false then .access_denied
    else .redeem ⟨record.id, hashDeviceCode input.device_code, record.key.fingerprint⟩

/-- `poll`, up to the redemption. -/
def pollOutcome (input : PollInput) : PollAnswer → PollOutcome
  | .not_found | .access_denied => .access_denied
  | .expired_token => .expired_token
  | .authorization_pending seconds => .authorization_pending seconds
  | .slow_down seconds => .slow_down seconds
  | .active record =>
    match input.public_key_pem, input.proof_signature_base64 with
    | some pem, some signature =>
      prove hashDeviceCode canonicalDevicePublicKey verifyEnrollmentProof input record pem signature
    | _, _ => .access_denied
  | .approved_pending_redemption record =>
    match input.public_key_pem, input.proof_signature_base64 with
    | some pem, some signature =>
      prove hashDeviceCode canonicalDevicePublicKey verifyEnrollmentProof input record pem signature
    | _, _ => .approved_pending_redemption record.id

/-- `poll` of the service. -/
def servicePoll (db : Database) (input : PollInput) (now : ℤ) : Except IdentityError (PollOutcome × Database) :=
  if isValidDeviceCode input.device_code = false then .ok (.access_denied, db)
  else do
    let (answer, db) ← poll db (hashDeviceCode input.device_code) now
    return (pollOutcome hashDeviceCode canonicalDevicePublicKey verifyEnrollmentProof input answer, db)

end

/-! ### Revocation -/

structure RevokeInput where
  device_id : String
  revoked_by_user_id : String
  reason : String
  revoked_at : ℤ

structure RevocationOutcome where
  record : RevocationRow
  replayed : Bool
  deriving DecidableEq

/-- `device_revocations_reason_check` -/
def ReasonChecked (reason : String) : Prop := notBlank reason = true ∧ reason.length ≤ 4000

instance (reason : String) : Decidable (ReasonChecked reason) := by unfold ReasonChecked; infer_instance

/-- The credentials of a device are revoked. -/
def Database.revokeCredentials (db : Database) (device_id : String) (revoked_at : ℤ) : Database :=
  { db with credentials := db.credentials.mapValues fun credential =>
      if credential.device_id = device_id ∧ credential.state = .active then credential.revoke revoked_at
      else credential }

/-- A revoked device. -/
def StoredDevice.revoked (device : StoredDevice) (revoked_at : ℤ) : DeviceRow :=
  { device.toDeviceRow with
    lifecycle := .revoked
    current_generation := device.current_generation + 1
    revoked_at := some revoked_at }

/-- `revoke`, for the identity of the device. Whether its loop has fenced every run that is active on the device
(`Cancellation.fenceRuns`) is given. -/
def revoke (db : Database) (fenced : Bool) (input : RevokeInput) :
    Except IdentityError (RevocationOutcome × Database) :=
  match db.users.get? input.revoked_by_user_id, db.devices.get? input.device_id with
  | some actor, some device => do
    refuse (actor = false ∨ device.owner_user_id ≠ some input.revoked_by_user_id) .revocation_not_authorized
    if device.lifecycle = .revoked then
      match db.revocations.get? input.device_id with
      | none => .error .revocation_record_missing
      | some prior => return (⟨prior, true⟩, db)
    else do
      refuse (¬ ∃ credential ∈ db.credentials.values, credential.device_id = input.device_id ∧
        credential.generation = device.current_generation ∧ credential.state = .active) .active_credential_missing
      refuse (db.revocations.has input.device_id = true ∨ ¬ ReasonChecked input.reason) .constraint
      refuse (fenced = false) .cancellation_scope_conflict
      let record : RevocationRow :=
        ⟨input.revoked_by_user_id, device.current_generation, device.current_generation + 1, input.reason,
          input.revoked_at⟩
      let db := { db with revocations := db.revocations.set input.device_id record }
      let db ← (db.revokeCredentials input.device_id input.revoked_at).updateDevice input.device_id device
        (device.revoked input.revoked_at)
      return (⟨record, false⟩, db)
  | _, _ => .error .device_not_found

/-! ### What is authenticated -/

/-- The device, its credential and its owner, as the joins find them. -/
def Database.candidate (db : Database) (device_id credential_id : String) :
    Option (StoredDevice × StoredCredential × Bool) := do
  let device ← db.devices.get? device_id
  let credential ← db.credentials.get? credential_id
  let owner ← device.owner_user_id
  let status ← db.users.get? owner
  if credential.device_id = device_id then some (device, credential, status) else none

/-- The credential is the current one of an active device of an active owner. -/
def Database.current (db : Database) (identity : DeviceIdentity) : Option StoredCredential :=
  match db.candidate identity.device_id identity.credential_id with
  | none => none
  | some (device, credential, status) =>
    if device.lifecycle = .active ∧ status = true ∧ credential.state = .active ∧
        device.current_generation = identity.generation ∧ credential.generation = identity.generation then
      some credential
    else none

structure WssRequest where
  identity : DeviceIdentity
  protocol_version : String
  /-- What the signature is of: the transcript with the challenge of the connection. -/
  transcript : String
  transcript_signature : String

/-- `authenticate` -/
def authenticate (edVerify : List UInt8 → String → String → Bool) (supportedProtocolVersions : List String)
    (db : Database) (request : WssRequest) : Option DeviceIdentity :=
  if request.protocol_version ∉ supportedProtocolVersions then none
  else if request.identity.generation = 0 ∨ 9007199254740991 < request.identity.generation then none
  else
    match db.candidate request.identity.device_id request.identity.credential_id with
    | none => none
    | some (_, credential, _) =>
      if edVerify credential.key.canonical_spki_der request.transcript request.transcript_signature = false then none
      else if (db.current request.identity).isNone then none
      else some request.identity

inductive Consumption
  | consumed | replayed | inactive
  deriving DecidableEq, Repr

structure ReplayInput where
  request_id : String
  identity : DeviceIdentity
  purpose : String
  request_timestamp : ℤ
  consumed_at : ℤ

def ReplayInput.row (input : ReplayInput) (legacy : Bool) : ReplayRow where
  legacy := legacy
  identity := input.identity
  purpose := input.purpose
  request_timestamp := input.request_timestamp
  consumed_at := input.consumed_at

def Database.insertReplay (db : Database) (legacy : Bool) (input : ReplayInput) : Consumption × Database :=
  if db.replays.has input.request_id = true then (.replayed, db)
  else (.consumed, { db with replays := db.replays.set input.request_id (input.row legacy) })

/-- `consumeRequestId` -/
def consumeRequestId (db : Database) (input : ReplayInput) : Consumption × Database :=
  if (db.current input.identity).isNone then (.inactive, db) else db.insertReplay false input

/-- `consumeLegacyRequestId` -/
def consumeLegacyRequestId (db : Database) (input : ReplayInput) : Consumption × Database :=
  db.insertReplay true input

end Norns.Devices.Identity
