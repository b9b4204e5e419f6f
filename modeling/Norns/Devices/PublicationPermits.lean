import Mathlib.Data.List.Induction
import Norns.Lib.OrdMap
import Norns.Lib.Run
import Norns.Lib.Transaction

/-! # Publication permits

`DevicePublicationPermitService` (`publicationPermits.ts`): a device asks for a permit for one run,
branch and commit, and lets the server consume it once before it pushes. The join that reauthorizes a
request is one answer, `Authority`, given anew for each request.

* `issue`, `consume`: the two requests;
* `serve`: the service, whoever asks;
* `Issued`, `issued_run`: every row of the table goes back to a request;
* `granted_once`: what was granted. -/

namespace Norns.Devices.PublicationPermits

open Norns.Lib Norns.Lib.Run Norns.Lib.Transaction

/-! ### Permits -/

/-- `DevicePublicationPermitIssueRequest` -/
structure PermitScope where
  run_id : String
  repository_registration_id : String
  project_device_repository_grant_id : String
  repository_binding_id : String
  repository_id : String
  branch : String
  commit_sha : String
  deriving DecidableEq, Repr

/-- `ExactConnectedDeviceIdentity` -/
structure DeviceIdentity where
  device_id : String
  credential_id : String
  generation : ℕ
  deriving DecidableEq, Repr

/-- `DevicePublicationPermitClaims`; times are milliseconds. -/
structure PermitClaims extends PermitScope, DeviceIdentity where
  permit_id : String
  issued_at : ℤ
  expires_at : ℤ
  deriving DecidableEq, Repr

structure SignedPermit where
  permit : PermitClaims
  key_id : String
  signature_base64 : String
  deriving DecidableEq, Repr

/-- A row of `device_publication_permits`. -/
structure PermitRow where
  permit : PermitClaims
  signing_key_id : String
  consumed_at : Option ℤ
  deriving DecidableEq, Repr

abbrev PermitTable := OrdMap String PermitRow

inductive PermitError
  | publication_not_authorized | device_offline | invalid_permit | permit_expired | permit_consumed
  /-- The primary key of the table. -/
  | duplicate_key
  deriving DecidableEq, Repr

/-- `MAX_PUBLICATION_PERMIT_LIFETIME_MS` -/
def maxLifetimeMs : ℤ := 30000

/-- The service, with its signing key. -/
structure PermitService where
  key_id : String
  ttlMs : ℤ
  sign : PermitClaims → String
  verify : PermitClaims → String → Bool
  ttl : 0 < ttlMs ∧ ttlMs ≤ maxLifetimeMs
  verify_sign : ∀ permit, verify permit (sign permit) = true

/-- What the server finds when a request comes in. -/
structure Authority where
  /-- `isConnectedIdentity` -/
  connected : Bool
  /-- `authorizedPublicationScope` has a row. -/
  authorized : Bool
  deriving DecidableEq, Repr

section

variable (service : PermitService)

/-- `issue`; `permit_id` is the new id. -/
def issue (table : PermitTable) (identity : DeviceIdentity) (request : PermitScope)
    (found : Authority) (permit_id : String) (now : ℤ) :
    Except PermitError (SignedPermit × PermitTable) := do
  refuse (found.connected = false) .device_offline
  refuse (found.authorized = false) .publication_not_authorized
  let permit : PermitClaims :=
    { toPermitScope := request, toDeviceIdentity := identity, permit_id
      issued_at := now, expires_at := now + service.ttlMs }
  refuse (table.has permit_id) .duplicate_key
  return (⟨permit, service.key_id, service.sign permit⟩,
    table.set permit_id ⟨permit, service.key_id, none⟩)

/-- The permit is outside its lifetime, or its lifetime is none. -/
def Stale (permit : PermitClaims) (now : ℤ) : Prop :=
  permit.expires_at ≤ permit.issued_at ∨ maxLifetimeMs < permit.expires_at - permit.issued_at ∨
    now < permit.issued_at ∨ permit.expires_at < now

instance (permit : PermitClaims) (now : ℤ) : Decidable (Stale permit now) :=
  inferInstanceAs (Decidable (_ ∨ _))

/-- `consume` -/
def consume (table : PermitTable) (identity : DeviceIdentity) (signed : SignedPermit)
    (found : Authority) (now : ℤ) : Except PermitError PermitTable := do
  let permit := signed.permit
  refuse (signed.key_id ≠ service.key_id) .invalid_permit
  refuse (permit.toDeviceIdentity ≠ identity) .invalid_permit
  refuse (service.verify permit signed.signature_base64 = false) .invalid_permit
  refuse (Stale permit now) .permit_expired
  refuse (found.connected = false) .device_offline
  match table.get? permit.permit_id with
  | none => .error .invalid_permit
  | some row => do
    refuse (row.permit ≠ permit ∨ row.signing_key_id ≠ signed.key_id) .invalid_permit
    refuse row.consumed_at.isSome .permit_consumed
    refuse (found.authorized = false) .publication_not_authorized
    return table.set permit.permit_id { row with consumed_at := some now }

/-! ### What the requests do -/

variable {service} {table table' : PermitTable} {identity : DeviceIdentity} {found : Authority}
  {now : ℤ}

/-- The claims of a new permit. -/
def newClaims (service : PermitService) (identity : DeviceIdentity) (request : PermitScope)
    (permit_id : String) (now : ℤ) : PermitClaims :=
  { toPermitScope := request, toDeviceIdentity := identity, permit_id
    issued_at := now, expires_at := now + service.ttlMs }

theorem issue_ok {request : PermitScope} {permit_id : String} {signed : SignedPermit}
    (h : issue service table identity request found permit_id now = .ok (signed, table')) :
    found = ⟨true, true⟩ ∧ table.get? permit_id = none ∧
      signed = ⟨newClaims service identity request permit_id now, service.key_id,
        service.sign (newClaims service identity request permit_id now)⟩ ∧
      table' = table.set permit_id
        ⟨newClaims service identity request permit_id now, service.key_id, none⟩ := by
  unfold issue at h
  obtain ⟨hconnected, h⟩ := refuse_bind_ok.mp h
  obtain ⟨hauthorized, h⟩ := refuse_bind_ok.mp h
  obtain ⟨hnew, h⟩ := refuse_bind_ok.mp h
  have hnone : table.get? permit_id = none := by
    rw [OrdMap.get?_eq_none]
    exact fun hmem => hnew (OrdMap.has_iff.mpr hmem)
  have hfound : found = ⟨true, true⟩ := by
    obtain ⟨connected, authorized⟩ := found
    simp_all
  cases h
  exact ⟨hfound, hnone, rfl, rfl⟩

/-- What must have held for a permit to be consumed. -/
structure Consumable (service : PermitService) (table : PermitTable) (identity : DeviceIdentity)
    (signed : SignedPermit) (found : Authority) (now : ℤ) : Prop where
  key : signed.key_id = service.key_id
  identity : signed.permit.toDeviceIdentity = identity
  signature : service.verify signed.permit signed.signature_base64 = true
  lifetime : ¬ Stale signed.permit now
  row : table.get? signed.permit.permit_id = some ⟨signed.permit, service.key_id, none⟩
  found : found = ⟨true, true⟩

theorem consume_ok {signed : SignedPermit}
    (h : consume service table identity signed found now = .ok table') :
    Consumable service table identity signed found now ∧
      table' = table.set signed.permit.permit_id ⟨signed.permit, service.key_id, some now⟩ := by
  unfold consume at h
  obtain ⟨hkey, h⟩ := refuse_bind_ok.mp h
  obtain ⟨hidentity, h⟩ := refuse_bind_ok.mp h
  obtain ⟨hsignature, h⟩ := refuse_bind_ok.mp h
  obtain ⟨hlifetime, h⟩ := refuse_bind_ok.mp h
  obtain ⟨hconnected, h⟩ := refuse_bind_ok.mp h
  split at h
  case h_1 => cases h
  case h_2 row hrow =>
    obtain ⟨hsame, h⟩ := refuse_bind_ok.mp h
    obtain ⟨hfresh, h⟩ := refuse_bind_ok.mp h
    obtain ⟨hauthorized, h⟩ := refuse_bind_ok.mp h
    have hkey : signed.key_id = service.key_id := not_not.mp hkey
    have hpermit : row.permit = signed.permit ∧ row.signing_key_id = service.key_id := by
      rw [not_or, not_not, not_not, hkey] at hsame
      exact hsame
    have hnone : row.consumed_at = none := by simpa using hfresh
    have hfound : found = ⟨true, true⟩ := by
      obtain ⟨connected, authorized⟩ := found
      simp_all
    obtain ⟨permit, signing_key_id, consumed_at⟩ := row
    obtain ⟨rfl, rfl⟩ := hpermit
    subst hnone
    cases h
    exact ⟨⟨hkey, not_not.mp hidentity, by simpa using hsignature, hlifetime, hrow, hfound⟩, rfl⟩

/-- **A permit that may be consumed is.** -/
theorem consume_of_consumable {signed : SignedPermit}
    (h : Consumable service table identity signed found now) :
    consume service table identity signed found now =
      .ok (table.set signed.permit.permit_id ⟨signed.permit, service.key_id, some now⟩) := by
  have hfound := h.found
  subst hfound
  unfold consume refuse
  simp [h.key, h.identity, h.signature, h.lifetime, h.row, bind, Except.bind, pure, Except.pure]

end

/-! ### The service -/

inductive Request
  | issue (identity : DeviceIdentity) (request : PermitScope) (found : Authority)
      (permit_id : String) (now : ℤ)
  | consume (identity : DeviceIdentity) (signed : SignedPermit) (found : Authority) (now : ℤ)
  deriving DecidableEq

inductive Reply
  | issued (signed : SignedPermit)
  /-- `outcome: "authorized"` -/
  | consumed (permit : PermitClaims) (consumed_at : ℤ)
  | refused (error : PermitError)
  deriving DecidableEq, Repr

/-- One request of anyone. -/
def serve (service : PermitService) (table : PermitTable) : Request → PermitTable × Reply
  | .issue identity request found permit_id now =>
    match issue service table identity request found permit_id now with
    | .ok (signed, table') => (table', .issued signed)
    | .error error => (table, .refused error)
  | .consume identity signed found now =>
    match consume service table identity signed found now with
    | .ok table' => (table', .consumed signed.permit now)
    | .error error => (table, .refused error)

/-- The table after a request. -/
def step (service : PermitService) (table : PermitTable) (request : Request) : PermitTable :=
  (serve service table request).1

section

variable {service : PermitService} {table table' : PermitTable}

/-- How the table changes: a new row, or a row that is consumed. -/
inductive Served (service : PermitService) (table : PermitTable) : Request → PermitTable → Prop
  | same (request : Request) : Served service table request table
  | issued (identity : DeviceIdentity) (request : PermitScope) (permit_id : String) (now : ℤ)
      (new : table.get? permit_id = none) :
      Served service table (.issue identity request ⟨true, true⟩ permit_id now)
        (table.set permit_id ⟨newClaims service identity request permit_id now, service.key_id, none⟩)
  | consumed (identity : DeviceIdentity) (signed : SignedPermit) (found : Authority) (now : ℤ)
      (consumable : Consumable service table identity signed found now) :
      Served service table (.consume identity signed found now)
        (table.set signed.permit.permit_id ⟨signed.permit, service.key_id, some now⟩)

theorem step_served (service : PermitService) (table : PermitTable) (request : Request) :
    Served service table request (step service table request) := by
  unfold step serve
  cases request with
  | issue identity request found permit_id now =>
    dsimp only
    split
    case h_1 signed table' hok =>
      obtain ⟨hfound, hnew, -, htable⟩ := issue_ok hok
      rw [htable, hfound]
      exact .issued identity request permit_id now hnew
    case h_2 => exact .same _
  | consume identity signed found now =>
    dsimp only
    split
    case h_1 table' hok =>
      obtain ⟨hconsumable, htable⟩ := consume_ok hok
      rw [htable]
      exact .consumed identity signed found now hconsumable
    case h_2 => exact .same _

/-- A consumed permit stays as it is. -/
theorem Served.keeps_consumed {request : Request} {id : String} {row : PermitRow}
    (h : Served service table request table') (hrow : table.get? id = some row)
    (hconsumed : row.consumed_at ≠ none) : table'.get? id = some row := by
  cases h with
  | same => exact hrow
  | issued identity request permit_id now hnew =>
    have hne : permit_id ≠ id := by
      rintro rfl
      rw [hnew] at hrow
      cases hrow
    rw [OrdMap.get?_set_ne _ _ hne]
    exact hrow
  | consumed identity signed found now hconsumable =>
    have hne : signed.permit.permit_id ≠ id := by
      rintro rfl
      rw [hconsumable.row] at hrow
      cases hrow
      exact hconsumed rfl
    rw [OrdMap.get?_set_ne _ _ hne]
    exact hrow

/-- The row goes back to an authorized request for it. -/
structure Issued (service : PermitService) (requests : List Request) (id : String) (row : PermitRow) :
    Prop where
  permit_id : row.permit.permit_id = id
  expires : row.permit.expires_at = row.permit.issued_at + service.ttlMs
  request : .issue row.permit.toDeviceIdentity row.permit.toPermitScope ⟨true, true⟩ id
    row.permit.issued_at ∈ requests

theorem Issued.mono {requests requests' : List Request} {id : String} {row : PermitRow}
    (h : Issued service requests id row) (hsub : ∀ r ∈ requests, r ∈ requests') :
    Issued service requests' id row :=
  ⟨h.permit_id, h.expires, hsub _ h.request⟩

theorem Served.issued_rows {request : Request} {requests : List Request}
    (h : Served service table request table')
    (hrows : ∀ id row, table.get? id = some row → Issued service requests id row) (id : String)
    (row : PermitRow) (hrow : table'.get? id = some row) :
    Issued service (requests ++ [request]) id row := by
  have hold : ∀ {row}, table.get? id = some row → Issued service (requests ++ [request]) id row :=
    fun hget => (hrows id _ hget).mono fun r hr => List.mem_append_left _ hr
  cases h with
  | same => exact hold hrow
  | issued identity request permit_id now hnew =>
    rw [OrdMap.get?_set] at hrow
    split at hrow
    case isTrue heq =>
      subst heq
      cases hrow
      exact ⟨rfl, rfl, List.mem_append_right _ (List.mem_singleton.mpr rfl)⟩
    case isFalse => exact hold hrow
  | consumed identity signed found now hconsumable =>
    rw [OrdMap.get?_set] at hrow
    split at hrow
    case isTrue heq =>
      subst heq
      cases hrow
      have hsame := hold hconsumable.row
      exact ⟨hsame.permit_id, hsame.expires, hsame.request⟩
    case isFalse => exact hold hrow

/-- Every permit of the table goes back to a request. -/
theorem issued_run (service : PermitService) (requests : List Request) (id : String) (row : PermitRow)
    (hrow : (run (step service) .empty requests).get? id = some row) :
    Issued service requests id row := by
  induction requests using List.reverseRecOn generalizing id row with
  | nil => cases hrow
  | append_singleton requests request ih =>
    rw [run_concat] at hrow
    exact (step_served service _ request).issued_rows ih id row hrow

theorem keeps_consumed_run {requests : List Request} {id : String} {row : PermitRow} :
    ∀ {table : PermitTable}, table.get? id = some row → row.consumed_at ≠ none →
      (run (step service) table requests).get? id = some row := by
  induction requests with
  | nil => exact fun hrow _ => hrow
  | cons request requests ih =>
    intro table hrow hconsumed
    rw [run_cons]
    exact ih ((step_served service table request).keeps_consumed hrow hconsumed) hconsumed

/-- The reply says what was consumed. -/
theorem serve_consumed {request : Request} {permit : PermitClaims} {consumed_at : ℤ}
    (h : (serve service table request).2 = .consumed permit consumed_at) :
    ∃ identity signed found, request = .consume identity signed found consumed_at ∧
      signed.permit = permit ∧ Consumable service table identity signed found consumed_at ∧
      (step service table request).get? permit.permit_id =
        some ⟨permit, service.key_id, some consumed_at⟩ := by
  unfold step serve at *
  cases request with
  | issue identity request found permit_id now =>
    dsimp only at h
    split at h <;> cases h
  | consume identity signed found now =>
    dsimp only at h ⊢
    split at h
    case h_2 => cases h
    case h_1 table' hok =>
      cases h
      obtain ⟨hconsumable, htable⟩ := consume_ok hok
      refine ⟨identity, signed, found, rfl, rfl, hconsumable, ?_⟩
      rw [htable, OrdMap.get?_set_self]

/-- A permit is consumed at one request at most. -/
theorem consumed_once {pre between : List Request} {request request' : Request}
    {permit permit' : PermitClaims} {at_ at' : ℤ}
    (h : (serve service (run (step service) .empty pre) request).2 = .consumed permit at_)
    (h' : (serve service (run (step service) .empty (pre ++ request :: between)) request').2 =
      .consumed permit' at') :
    permit'.permit_id ≠ permit.permit_id := by
  intro hid
  obtain ⟨-, -, -, -, -, -, hrow⟩ := serve_consumed h
  obtain ⟨identity', signed', found', -, hpermit', hconsumable', -⟩ := serve_consumed h'
  have hstays : (run (step service) .empty (pre ++ request :: between)).get? permit.permit_id =
      some ⟨permit, service.key_id, some at_⟩ := by
    rw [run_append, run_cons]
    exact keeps_consumed_run hrow (by simp)
  have hfresh := hconsumable'.row
  rw [hpermit', hid, hstays] at hfresh
  cases hfresh

/-- **Permits.** Whatever is granted, to whomever asks, was issued by an earlier request of the same
device for the same run, branch and commit, at most the lifetime of a permit ago, with the device
connected and authorized both times, and it is granted once. -/
theorem granted_once (service : PermitService) (requests pre : List Request) (request : Request)
    (hpre : pre ++ [request] <+: requests) (permit : PermitClaims) (consumed_at : ℤ)
    (hgranted : (serve service (run (step service) .empty pre) request).2 =
      .consumed permit consumed_at) :
    (∃ signed, request = .consume permit.toDeviceIdentity signed ⟨true, true⟩ consumed_at ∧
        signed.permit = permit) ∧
      .issue permit.toDeviceIdentity permit.toPermitScope ⟨true, true⟩ permit.permit_id
        permit.issued_at ∈ pre ∧
      permit.issued_at ≤ consumed_at ∧ consumed_at ≤ permit.issued_at + service.ttlMs ∧
      ∀ pre' request' permit' consumed_at', pre' ++ [request'] <+: requests →
        (serve service (run (step service) .empty pre') request').2 = .consumed permit' consumed_at' →
        permit'.permit_id = permit.permit_id → pre' = pre := by
  obtain ⟨identity, signed, found, rfl, rfl, hconsumable, hrow⟩ := serve_consumed hgranted
  have hissued := issued_run service pre _ _ hconsumable.row
  have hlifetime := hconsumable.lifetime
  have hidentity := hconsumable.identity
  have hfound := hconsumable.found
  subst hidentity hfound
  unfold Stale at hlifetime
  have hexpires : signed.permit.expires_at = signed.permit.issued_at + service.ttlMs := hissued.expires
  refine ⟨⟨signed, rfl, rfl⟩, hissued.request, by omega, by omega, ?_⟩
  intro pre' request' permit' consumed_at' hpre' hgranted' hid
  rcases lt_trichotomy pre'.length pre.length with hlt | heq | hgt
  · obtain ⟨between, rfl⟩ : pre' ++ [request'] <+: pre :=
      List.prefix_of_prefix_length_le hpre' (.trans ⟨_, rfl⟩ hpre) (by simp; omega)
    rw [List.append_assoc, List.singleton_append] at hgranted
    exact absurd hid.symm (consumed_once hgranted' hgranted)
  · refine List.IsPrefix.eq_of_length ?_ heq
    exact List.prefix_of_prefix_length_le (.trans ⟨_, rfl⟩ hpre') (.trans ⟨_, rfl⟩ hpre) heq.le
  · obtain ⟨between, rfl⟩ := List.prefix_of_prefix_length_le hpre
      (List.IsPrefix.trans ⟨[request'], rfl⟩ hpre') (by simp; omega)
    rw [List.append_assoc, List.singleton_append] at hgranted'
    exact absurd hid (consumed_once hgranted hgranted')

end

/-! ### A permit -/

def sampleService : PermitService :=
  ⟨"key", 30000, fun _ => "signature", fun _ signature => decide (signature = "signature"),
    by decide, fun _ => rfl⟩

def sampleIdentity : DeviceIdentity := ⟨"device", "credential", 1⟩

def sampleScope : PermitScope :=
  ⟨"run", "registration", "grant", "binding", "repository", "task", "c1"⟩

def sampleIssue : Request := .issue sampleIdentity sampleScope ⟨true, true⟩ "permit" 0

def sampleConsume : Request :=
  .consume sampleIdentity
    ⟨newClaims sampleService sampleIdentity sampleScope "permit" 0, "key", "signature"⟩
    ⟨true, true⟩ 1000

theorem granted_once_sample : ∃ signed, sampleConsume =
    .consume sampleIdentity signed ⟨true, true⟩ 1000 ∧
      signed.permit = newClaims sampleService sampleIdentity sampleScope "permit" 0 :=
  (granted_once sampleService [sampleIssue, sampleConsume] [sampleIssue] sampleConsume
    (List.prefix_refl _) (newClaims sampleService sampleIdentity sampleScope "permit" 0) 1000
    (by decide +kernel)).1

end Norns.Devices.PublicationPermits
