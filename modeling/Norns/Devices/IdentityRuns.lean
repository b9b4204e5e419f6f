import Norns.Devices.IdentityWrites

/-! # Identities over whole runs

Users poll, approve, deny and revoke in any order. A poll whose proof is verified asks for a redemption, which may be
done at any time after it, more than once, or never; codes expire when a service reads them late.

* `attempt`, `step`: one call of one service;
* `enrolled_by_approval`, `credentials_apart`: where credentials come from;
* `redemption_replayed`, `revoked_out`: what is final;
* `writes_accepted`, `polls_spaced`: what is never refused, and when a poll is answered. -/

namespace Norns.Devices.Identity

open Norns.Lib Norns.Lib.Run Norns.Lib.Transaction
open Norns.Devices.PublicationPermits (DeviceIdentity)

/-! ### The system -/

/-- The tables, and what was called: the approvals, the redemptions that were asked for, the polls that were given a
next time, the requests of the polls that came too early, and what was polled with. -/
structure System where
  db : Database
  approvals : List Approval := []
  redemptions : List Redemption := []
  polls : List (String × ℤ) := []
  slowed : List String := []
  inputs : List PollInput := []

inductive Action
  | setUser (id : String) (active : Bool)
  | createAuthorization (input : CreateInput)
  | lookupByHumanCode (human_code_hash : HashedEnrollmentCode) (now : ℤ)
  | getDecisionCandidate (authorization_request_id : String) (now : ℤ)
  | getOwnedAuthorization (authorization_request_id owner_user_id : String) (now : ℤ)
  | approve (authorization_request_id : String) (human_code_hash : HashedEnrollmentCode) (owner_user_id : String)
    (now : ℤ)
  | deny (authorization_request_id : String) (human_code_hash : HashedEnrollmentCode) (denied_by_user_id : String)
    (now : ℤ)
  | poll (input : PollInput) (now : ℤ)
  | redeem (i : ℕ) (device_id credential_id : String) (now : ℤ)
  | revoke (fenced : Bool) (input : RevokeInput)
  | consumeRequestId (input : ReplayInput)
  | consumeLegacyRequestId (input : ReplayInput)

def initial : System where
  db := ⟨.empty, .empty, .empty, .empty, .empty, .empty⟩

def System.put {α : Type} (s : System) (result : α × Database) : System := { s with db := result.2 }

/-- The redemption that a poll of the service asks for. -/
def PollOutcome.redemptions : PollOutcome → List Redemption
  | .redeem redemption => [redemption]
  | _ => []

/-- The options of the service, and what it computes with keys and codes. -/
structure Service where
  options : EnrollmentOptions
  hashDeviceCode : String → HashedEnrollmentCode
  canonicalDevicePublicKey : String → Option CanonicalDevicePublicKey
  verifyEnrollmentProof : List UInt8 → String → String → Bool

section

variable (service : Service)

/-- The request of a device code. -/
def Database.ofCode (db : Database) (input : PollInput) : Option StoredRequest :=
  db.requests.values.find? fun row => row.device_code_hash = service.hashDeviceCode input.device_code

/-- The request that is polled, where the answer is of this kind. -/
def asked (kind : PollAnswer → Bool) (db : Database) (input : PollInput) (now : ℤ) : List String :=
  if isValidDeviceCode input.device_code = false then []
  else match Identity.poll db (service.hashDeviceCode input.device_code) now with
    | .error _ => []
    | .ok (answer, _) => if kind answer then ((db.ofCode service input).map fun row => row.id).toList else []

/-- One call. -/
def attempt (s : System) : Action → Except IdentityError System
  | .setUser id active => .ok { s with db := { s.db with users := s.db.users.set id active } }
  | .createAuthorization input => s.put <$> Identity.createAuthorization service.options s.db input
  | .lookupByHumanCode human_code_hash now => s.put <$> Identity.lookupByHumanCode s.db human_code_hash now
  | .getDecisionCandidate id now => s.put <$> Identity.getDecisionCandidate s.db id now
  | .getOwnedAuthorization id owner now => s.put <$> Identity.getOwnedAuthorization s.db id owner now
  | .approve id human_code_hash owner now =>
    System.put { s with approvals :=
      ⟨id, human_code_hash, owner, decide (s.db.users.get? owner = some true)⟩ :: s.approvals } <$>
      Identity.approve s.db id human_code_hash owner now
  | .deny id human_code_hash user now => s.put <$> Identity.deny s.db id human_code_hash user now
  | .poll input now => do
    let (outcome, db) ← servicePoll service.hashDeviceCode service.canonicalDevicePublicKey service.verifyEnrollmentProof
      s.db input now
    return { s with
      db := db
      redemptions := outcome.redemptions ++ s.redemptions
      polls := (asked service PollAnswer.scheduled s.db input now).map (fun id => (id, now)) ++ s.polls
      slowed := asked service PollAnswer.early s.db input now ++ s.slowed
      inputs := input :: s.inputs }
  | .redeem i device_id credential_id now =>
    match s.redemptions[i]? with
    | none => .ok s
    | some redemption => s.put <$> Identity.redeem s.db
        ⟨redemption, device_id, credential_id, now, now + service.options.redemptionResultTtlMs⟩
  | .revoke fenced input => s.put <$> Identity.revoke s.db fenced input
  | .consumeRequestId input => .ok (s.put (Identity.consumeRequestId s.db input))
  | .consumeLegacyRequestId input => .ok (s.put (Identity.consumeLegacyRequestId s.db input))

def step (s : System) (a : Action) : System :=
  commit s (attempt service s a)

end

/-! ### What a call writes -/

section

variable {e : Evidence} {db db' : Database}

/-- Where what stands in the requests comes from. -/
structure Traced (e : Evidence) (db : Database) : Prop where
  approved : ∀ id row, db.requests.get? id = some row → ∀ user ∈ row.approved_by_user_id,
    ⟨row.id, row.user_code_hash, user, true⟩ ∈ e.approvals
  redeemed : ∀ id row, db.requests.get? id = some row → row.state = .active →
    ⟨row.id, row.device_code_hash, row.key.fingerprint⟩ ∈ e.redemptions

theorem Traced.mono {e' : Evidence} (h : Traced e db) (happrovals : e.approvals ⊆ e'.approvals)
    (hredemptions : e.redemptions ⊆ e'.redemptions) : Traced e' db :=
  ⟨fun id row hget user hmem => happrovals (h.approved id row hget user hmem),
    fun id row hget hactive => hredemptions (h.redeemed id row hget hactive)⟩

theorem Traced.change (h : Traced e db) (hchange : Change e db db') : Traced e db' := by
  cases hchange with
  | users users keeps => exact ⟨h.approved, h.redeemed⟩
  | moved old new found moved references schedule approved =>
    constructor
    · intro id row hget user hmem
      rcases get?_set_cases hget with ⟨-, rfl⟩ | ⟨-, hget⟩
      · rw [moved.id, moved.guarded.user_code_hash]
        rcases approved user hmem with hsame | hcalled
        · exact h.approved _ old found user (hsame.symm.trans hmem)
        · exact hcalled
      · exact h.approved id row hget user hmem
    · intro id row hget hactive
      rcases get?_set_cases hget with ⟨-, rfl⟩ | ⟨-, hget⟩
      · exact absurd hactive moved.inactive
      · exact h.redeemed id row hget hactive
  | polled old new now found live row asked =>
    have hmoved := moved_polled old live now
    rw [← row] at hmoved
    have hsame : new.approved_by_user_id = old.approved_by_user_id := by
      rw [row]
      unfold StoredRequest.polled
      split_ifs <;> rfl
    constructor
    · intro id other hget user hmem
      rcases get?_set_cases hget with ⟨-, rfl⟩ | ⟨-, hget⟩
      · rw [hmoved.id, hmoved.guarded.user_code_hash]
        exact h.approved _ old found user (hsame.symm.trans hmem)
      · exact h.approved id other hget user hmem
    · intro id other hget hactive
      rcases get?_set_cases hget with ⟨-, rfl⟩ | ⟨-, hget⟩
      · exact absurd hactive hmoved.inactive
      · exact h.redeemed id other hget hactive
  | created row pending unique unused =>
    have hshape := row.checked.state_shape
    unfold StateShape at hshape
    rw [pending] at hshape
    constructor
    · intro id other hget user hmem
      rcases get?_set_cases hget with ⟨-, rfl⟩ | ⟨-, hget⟩
      · cases hshape.1.symm.trans hmem
      · exact h.approved id other hget user hmem
    · intro id other hget hactive
      rcases get?_set_cases hget with ⟨-, rfl⟩ | ⟨-, hget⟩
      · cases pending.symm.trans hactive
      · exact h.redeemed id other hget hactive
  | redeemed old new input owner device credential found proven state approved due fresh fresh_credential request_row
      device_row credential_row user =>
    constructor
    · intro id other hget user hmem
      rcases get?_set_cases hget with ⟨-, rfl⟩ | ⟨-, hget⟩
      · rw [request_row] at hmem ⊢
        exact h.approved _ old found user hmem
      · exact h.approved id other hget user hmem
    · intro id other hget hactive
      rcases get?_set_cases hget with ⟨-, rfl⟩ | ⟨-, hget⟩
      · rw [request_row]
        exact proven
      · exact h.redeemed id other hget hactive
  | revoked device_id old new record revoked_at found state row => exact ⟨h.approved, h.redeemed⟩
  | consumed replays keeps => exact ⟨h.approved, h.redeemed⟩

/-- A request after a change: its key and its codes stay, and an active one stays as it is. -/
structure RequestKept (row row' : StoredRequest) : Prop where
  id : row'.id = row.id
  key : row'.key = row.key
  device_code_hash : row'.device_code_hash = row.device_code_hash
  active : row.state = .active → row' = row

theorem RequestKept.refl (row : StoredRequest) : RequestKept row row := ⟨rfl, rfl, rfl, fun _ => rfl⟩

theorem RequestKept.moved {old new : StoredRequest} (h : Moved old.toAuthorizationRow new.toAuthorizationRow) :
    RequestKept old new := by
  refine ⟨h.id, h.guarded.key, h.guarded.device_code_hash, fun hactive => ?_⟩
  have hopen := h.guarded.open_
  rw [hactive] at hopen
  cases hopen

/-- The requests, where one is set. -/
theorem request_set {old new : StoredRequest} (found : db.requests.get? old.id = some old) (hkept : RequestKept old new)
    {id : String} {row : StoredRequest} (hget : db.requests.get? id = some row) :
    ∃ row', (db.requests.set old.id new).get? id = some row' ∧ RequestKept row row' := by
  by_cases heq : id = old.id
  · subst heq
    cases found.symm.trans hget
    exact ⟨new, OrdMap.get?_set_self _ _ _, hkept⟩
  · exact ⟨row, (OrdMap.get?_set_ne _ _ (Ne.symm heq)).trans hget, .refl row⟩

theorem request_kept (hchange : Change e db db') {id : String} {row : StoredRequest}
    (hget : db.requests.get? id = some row) :
    ∃ row', db'.requests.get? id = some row' ∧ RequestKept row row' := by
  cases hchange with
  | users users keeps => exact ⟨row, hget, .refl row⟩
  | moved old new found moved => exact request_set found (.moved moved) hget
  | polled old new now found live hrow =>
    exact request_set found (.moved (by rw [hrow]; exact moved_polled old live now)) hget
  | created new pending unique unused =>
    refine ⟨row, (OrdMap.get?_set_ne _ _ fun heq => ?_).trans hget, .refl row⟩
    rw [← heq] at hget
    exact absurd (unique.1.symm.trans (has_of_get? hget)) (by decide)
  | redeemed old new input owner device credential found proven state approved due fresh fresh_credential request_row =>
    refine request_set found ?_ hget
    refine ⟨by rw [request_row]; rfl, by rw [request_row]; rfl, by rw [request_row]; rfl, fun hactive => ?_⟩
    cases state.symm.trans hactive
  | revoked => exact ⟨row, hget, .refl row⟩
  | consumed => exact ⟨row, hget, .refl row⟩

/-- A credential after a change. -/
theorem credential_after (hchange : Change e db db') {id : String} {credential : StoredCredential}
    (hget : db.credentials.get? id = some credential) :
    ∃ credential', db'.credentials.get? id = some credential' ∧ credential'.device_id = credential.device_id ∧
      credential'.key = credential.key := by
  cases hchange with
  | redeemed old new input owner device issued found proven state approved due fresh fresh_credential =>
    refine ⟨credential, (OrdMap.get?_set_ne _ _ fun heq => ?_).trans hget, rfl, rfl⟩
    rw [← heq, fresh_credential] at hget
    cases hget
  | revoked device_id old new record revoked_at =>
    obtain ⟨credential', hget', hdevice, -, hkey, -⟩ := @credential_kept db device_id id revoked_at credential hget
    exact ⟨credential', hget', hdevice, hkey⟩
  | users => exact ⟨credential, hget, rfl, rfl⟩
  | moved => exact ⟨credential, hget, rfl, rfl⟩
  | polled => exact ⟨credential, hget, rfl, rfl⟩
  | created => exact ⟨credential, hget, rfl, rfl⟩
  | consumed => exact ⟨credential, hget, rfl, rfl⟩

/-- A revoked device after a change. -/
theorem revoked_after (hchange : Change e db db') {id : String} {device : StoredDevice}
    (hget : db.devices.get? id = some device) (hrevoked : device.lifecycle = .revoked) :
    ∃ device', db'.devices.get? id = some device' ∧ device'.lifecycle = .revoked := by
  cases hchange with
  | redeemed old new input owner issued credential found proven state approved due fresh =>
    refine ⟨device, (OrdMap.get?_set_ne _ _ fun heq => ?_).trans hget, hrevoked⟩
    rw [← heq, fresh] at hget
    cases hget
  | revoked device_id old new record revoked_at found state row =>
    by_cases heq : id = device_id
    · exact ⟨new, by rw [heq]; exact OrdMap.get?_set_self _ _ _, by rw [row]; rfl⟩
    · exact ⟨device, (OrdMap.get?_set_ne _ _ (Ne.symm heq)).trans hget, hrevoked⟩
  | users => exact ⟨device, hget, hrevoked⟩
  | moved => exact ⟨device, hget, hrevoked⟩
  | polled => exact ⟨device, hget, hrevoked⟩
  | created => exact ⟨device, hget, hrevoked⟩
  | consumed => exact ⟨device, hget, hrevoked⟩

end

/-! ### One call -/

section

variable {service : Service} {s s' : System}

/-- A poll carries the code of a request, its key, and the proof of possession of it. -/
def Possessed (service : Service) (input : PollInput) (row : StoredRequest) : Prop :=
  ∃ (public_key_pem signature : String) (supplied : CanonicalDevicePublicKey),
    input.public_key_pem = some public_key_pem ∧ input.proof_signature_base64 = some signature ∧
    isValidDeviceCode input.device_code = true ∧ service.hashDeviceCode input.device_code = row.device_code_hash ∧
    service.canonicalDevicePublicKey public_key_pem = some supplied ∧ supplied.fingerprint = row.key.fingerprint ∧
    service.verifyEnrollmentProof row.key.canonical_spki_der
      (enrollmentRedemptionProofPayload row.id input.device_code row.key.fingerprint) signature = true

/-- The request that a redemption was asked for, by a poll with a proof. -/
def Proven (service : Service) (inputs : List PollInput) (db : Database) (redemption : Redemption) : Prop :=
  ∃ row, db.requests.get? redemption.authorization_request_id = some row ∧
    row.device_code_hash = redemption.device_code_hash ∧ row.key.fingerprint = redemption.public_key_fingerprint ∧
    ∃ input ∈ inputs, Possessed service input row

theorem Proven.mono {inputs inputs' : List PollInput} {db : Database} {redemption : Redemption}
    (h : Proven service inputs db redemption) (hinputs : inputs ⊆ inputs') : Proven service inputs' db redemption := by
  obtain ⟨row, hget, hcode, hkey, input, hmem, hpossessed⟩ := h
  exact ⟨row, hget, hcode, hkey, input, hinputs hmem, hpossessed⟩

theorem Proven.change {e : Evidence} {inputs : List PollInput} {db db' : Database} {redemption : Redemption}
    (h : Proven service inputs db redemption) (hchange : Change e db db') : Proven service inputs db' redemption := by
  obtain ⟨row, hget, hcode, hkey, input, hmem, hpossessed⟩ := h
  obtain ⟨row', hget', hkept⟩ := request_kept hchange hget
  refine ⟨row', hget', hkept.device_code_hash.trans hcode, by rw [hkept.key]; exact hkey, input, hmem, ?_⟩
  unfold Possessed
  rw [hkept.id, hkept.key, hkept.device_code_hash]
  exact hpossessed

/-- A poll that came too early has slowed its request down. -/
def SlowedDown (s s' : System) : Prop :=
  ∃ (row polled : StoredRequest) (now : ℤ), s'.slowed = row.id :: s.slowed ∧ s.db.requests.get? row.id = some row ∧
    s'.db.requests.get? row.id = some polled ∧ now < row.next_poll_at ∧ polled.toAuthorizationRow = row.polled now

/-- What a call does, where it is a poll with these times. -/
structure Called (service : Service) (s : System) (polls : List (String × ℤ)) (s' : System) : Prop where
  changes : Changes ⟨s'.approvals, s.redemptions, polls⟩ s.db s'.db
  approvals : s.approvals ⊆ s'.approvals
  redemptions : s.redemptions ⊆ s'.redemptions
  proven : ∀ redemption ∈ s'.redemptions, redemption ∈ s.redemptions ∨ Proven service s'.inputs s'.db redemption
  polls : ∀ q ∈ s'.polls, q ∈ s.polls ∨ (q ∈ polls ∧ ∃ row polled, s.db.requests.get? q.1 = some row ∧
    s'.db.requests.get? q.1 = some polled ∧ polled.toAuthorizationRow = row.polled q.2)
  slowed : s'.slowed = s.slowed ∨ SlowedDown s s'
  inputs : s.inputs ⊆ s'.inputs

theorem Called.put {α : Type} {answer : α} {db' : Database}
    (hchanges : Changes ⟨s.approvals, s.redemptions, []⟩ s.db db') : Called service s [] (s.put (answer, db')) :=
  ⟨hchanges, fun _ => id, fun _ => id, fun _ => .inl, fun _ => .inl, .inl rfl, fun _ => id⟩

theorem Called.refl (service : Service) (s : System) (polls : List (String × ℤ)) : Called service s polls s :=
  ⟨.refl _ _, fun _ => id, fun _ => id, fun _ => .inl, fun _ => .inl, .inl rfl, fun _ => id⟩

/-- The polls that a call may be. -/
def System.polling (service : Service) (s : System) : Action → List (String × ℤ)
  | .poll input now => ((s.db.ofCode service input).map fun row => (row.id, now)).toList
  | _ => []

/-- A call with ids that are new, and a reason that the table takes. -/
def Named (s : System) : Action → Prop
  | .redeem _ device_id credential_id _ =>
    s.db.devices.has device_id = false ∧ s.db.credentials.has credential_id = false
  | .revoke _ input => ReasonChecked input.reason
  | _ => True

/-- What a service refuses by itself. -/
def Refused (a : Action) (error : IdentityError) : Prop :=
  error = .invalid_device_metadata ∨ error = .device_not_found ∨ error = .revocation_not_authorized ∨
    (error = .cancellation_scope_conflict ∧ ∃ input, a = .revoke false input)

/-- A call that is made, or is refused. -/
def Attempted (service : Service) (s : System) (a : Action) : Prop :=
  (∃ s', attempt service s a = .ok s' ∧ Called service s (s.polling service a) s') ∨
    ∃ error, attempt service s a = .error error ∧ (Refused a error ∨ ¬ Named s a)

theorem attempted_put {α : Type} {x : Except IdentityError (α × Database)} {a : Action}
    (hattempt : attempt service s a = s.put <$> x) (hpolling : s.polling service a = [])
    (hx : ∃ answer db', x = .ok (answer, db') ∧ Changes ⟨s.approvals, s.redemptions, []⟩ s.db db') :
    Attempted service s a := by
  obtain ⟨answer, db', hok, hchanges⟩ := hx
  refine .inl ⟨s.put (answer, db'), ?_, ?_⟩
  · rw [hattempt, hok]
    rfl
  · rw [hpolling]
    exact .put hchanges

theorem attempt_error {α : Type} {x : Except IdentityError (α × Database)} {a : Action} {error : IdentityError}
    (hattempt : attempt service s a = s.put <$> x) (hx : x = .error error) : attempt service s a = .error error := by
  rw [hattempt, hx]
  rfl

theorem insertReplay_changes (e : Evidence) (db : Database) (legacy : Bool) (input : ReplayInput) :
    Changes e db (db.insertReplay legacy input).2 := by
  unfold Database.insertReplay
  split_ifs
  · exact .refl e db
  · refine Change.one (.consumed (db.replays.set input.request_id (input.row legacy)) fun id hhas => ?_)
    rw [OrdMap.has_iff] at hhas ⊢
    exact OrdMap.mem_keys_set.mpr (.inr hhas)

theorem consumeRequestId_changes (e : Evidence) (db : Database) (input : ReplayInput) :
    Changes e db (Identity.consumeRequestId db input).2 := by
  unfold Identity.consumeRequestId
  split_ifs
  · exact .refl e db
  · exact insertReplay_changes e db false input

/-- A poll that asks for a redemption has verified a proof. -/
theorem pollOutcome_redeem {input : PollInput} {answer : PollAnswer} {redemption : Redemption}
    (h : pollOutcome service.hashDeviceCode service.canonicalDevicePublicKey service.verifyEnrollmentProof input answer =
      .redeem redemption) :
    ∃ record, (answer = .active record ∨ answer = .approved_pending_redemption record) ∧
      redemption = ⟨record.id, service.hashDeviceCode input.device_code, record.key.fingerprint⟩ ∧
      ∃ public_key_pem signature supplied, input.public_key_pem = some public_key_pem ∧
        input.proof_signature_base64 = some signature ∧
        service.canonicalDevicePublicKey public_key_pem = some supplied ∧
        supplied.fingerprint = record.key.fingerprint ∧
        service.verifyEnrollmentProof record.key.canonical_spki_der
          (enrollmentRedemptionProofPayload record.id input.device_code record.key.fingerprint) signature = true := by
  have hprove : ∀ record pem signature, prove service.hashDeviceCode service.canonicalDevicePublicKey
      service.verifyEnrollmentProof input record pem signature = .redeem redemption →
      redemption = ⟨record.id, service.hashDeviceCode input.device_code, record.key.fingerprint⟩ ∧
      ∃ supplied, service.canonicalDevicePublicKey pem = some supplied ∧
        supplied.fingerprint = record.key.fingerprint ∧
        service.verifyEnrollmentProof record.key.canonical_spki_der
          (enrollmentRedemptionProofPayload record.id input.device_code record.key.fingerprint) signature = true := by
    intro record pem signature hredeem
    unfold prove at hredeem
    split at hredeem
    · cases hredeem
    · next supplied hsupplied =>
      split_ifs at hredeem with hkey hverified
      cases hredeem
      exact ⟨rfl, supplied, hsupplied, not_not.mp hkey, Bool.not_eq_false _ ▸ hverified⟩
  cases answer with
  | active record =>
    dsimp only [pollOutcome] at h
    split at h
    · next pem signature hpem hsignature =>
      obtain ⟨hredemption, supplied, hproof⟩ := hprove record pem signature h
      exact ⟨record, .inl rfl, hredemption, pem, signature, supplied, hpem, hsignature, hproof⟩
    · cases h
  | approved_pending_redemption record =>
    dsimp only [pollOutcome] at h
    split at h
    · next pem signature hpem hsignature =>
      obtain ⟨hredemption, supplied, hproof⟩ := hprove record pem signature h
      exact ⟨record, .inr rfl, hredemption, pem, signature, supplied, hpem, hsignature, hproof⟩
    · cases h
  | not_found => cases h
  | access_denied => cases h
  | expired_token => cases h
  | authorization_pending seconds => cases h
  | slow_down seconds => cases h

/-- A poll with the code of a request. -/
theorem attempt_poll {input : PollInput} {now : ℤ} {answer : PollAnswer} {db' : Database}
    (hvalid : isValidDeviceCode input.device_code = true)
    (hok : Identity.poll s.db (service.hashDeviceCode input.device_code) now = .ok (answer, db')) :
    attempt service s (.poll input now) = .ok { s with
      db := db'
      redemptions := PollOutcome.redemptions (pollOutcome service.hashDeviceCode service.canonicalDevicePublicKey
        service.verifyEnrollmentProof input answer) ++ s.redemptions
      polls := ((if answer.scheduled then ((s.db.ofCode service input).map fun row => row.id).toList else []).map
        fun id => (id, now)) ++ s.polls
      slowed := (if answer.early then ((s.db.ofCode service input).map fun row => row.id).toList else []) ++ s.slowed
      inputs := input :: s.inputs } := by
  have hfalse : ¬ isValidDeviceCode input.device_code = false := by rw [hvalid]; decide
  have hserved : servicePoll service.hashDeviceCode service.canonicalDevicePublicKey service.verifyEnrollmentProof s.db
      input now = .ok (pollOutcome service.hashDeviceCode service.canonicalDevicePublicKey
        service.verifyEnrollmentProof input answer, db') := by
    unfold servicePoll
    rw [if_neg hfalse, hok]
    rfl
  have hasked : ∀ kind, asked service kind s.db input now =
      if kind answer then ((s.db.ofCode service input).map fun row => row.id).toList else [] := by
    intro kind
    unfold asked
    rw [if_neg hfalse, hok]
  rw [← hasked, ← hasked]
  dsimp only [attempt]
  rw [hserved]
  rfl

/-- A redemption that the answer of a poll asks for is proven by that poll. -/
theorem Polled.proven {db db' : Database} {row : StoredRequest} {input : PollInput} {now : ℤ} {answer : PollAnswer}
    {inputs : List PollInput} {redemption : Redemption} (hrow : Polled db db' row now answer)
    (hcode : row.device_code_hash = service.hashDeviceCode input.device_code)
    (hvalid : isValidDeviceCode input.device_code = true) (hasked : input ∈ inputs)
    (houtcome : pollOutcome service.hashDeviceCode service.canonicalDevicePublicKey service.verifyEnrollmentProof
      input answer = .redeem redemption) : Proven service inputs db' redemption := by
  obtain ⟨record, hrecord, rfl, pem, signature, supplied, hpem, hsignature, hproof⟩ := pollOutcome_redeem houtcome
  obtain ⟨hget, hid, hsame, -⟩ := hrow.record record hrecord
  have hcode' : record.device_code_hash = service.hashDeviceCode input.device_code := hsame.trans hcode
  exact ⟨record, by rw [hid]; exact hget, hcode', rfl, input, hasked, pem, signature, supplied, hpem, hsignature,
    hvalid, hcode'.symm, hproof⟩

theorem attempted_poll (h : Sound s.db) (input : PollInput) (now : ℤ) : Attempted service s (.poll input now) := by
  left
  by_cases hvalid : isValidDeviceCode input.device_code = false
  · have hserved : servicePoll service.hashDeviceCode service.canonicalDevicePublicKey service.verifyEnrollmentProof s.db
        input now = .ok (.access_denied, s.db) := if_pos hvalid
    have hasked : ∀ kind, asked service kind s.db input now = [] := fun _ => if_pos hvalid
    refine ⟨{ s with inputs := input :: s.inputs }, ?_, .refl _ _, fun _ => id, fun _ => id, fun _ => .inl,
      fun _ => .inl, .inl rfl, fun _ => List.mem_cons_of_mem _⟩
    dsimp only [attempt]
    rw [hserved, hasked, hasked]
    rfl
  have hvalid : isValidDeviceCode input.device_code = true := Bool.not_eq_false _ ▸ hvalid
  obtain ⟨answer, db', hok, hchanges, hpolled⟩ := poll_spec
    (e := ⟨s.approvals, s.redemptions, s.polling service (.poll input now)⟩) h
    (service.hashDeviceCode input.device_code) now (fun row hfind => by
      show (row.id, now) ∈ ((s.db.ofCode service input).map fun row => (row.id, now)).toList
      unfold Database.ofCode
      rw [hfind]
      simp)
  refine ⟨_, attempt_poll hvalid hok, hchanges, fun _ => id, fun r hmem => List.mem_append_right _ hmem,
    fun r hmem => ?_, fun q hmem => ?_, ?_, fun _ => List.mem_cons_of_mem _⟩
  · rcases List.mem_append.mp hmem with hnew | hold
    · right
      generalize houtcome : pollOutcome service.hashDeviceCode service.canonicalDevicePublicKey
        service.verifyEnrollmentProof input answer = outcome at hnew
      cases outcome with
      | redeem redemption =>
        cases List.mem_singleton.mp hnew
        rcases hpolled with rfl | ⟨row, -, hcode, hrow⟩
        · obtain ⟨record, hrecord, -⟩ := pollOutcome_redeem houtcome
          rcases hrecord with heq | heq <;> cases heq
        · exact hrow.proven hcode hvalid List.mem_cons_self houtcome
      | access_denied => cases hnew
      | expired_token => cases hnew
      | authorization_pending seconds => cases hnew
      | slow_down seconds => cases hnew
      | approved_pending_redemption id => cases hnew
    · exact .inl hold
  · rcases List.mem_append.mp hmem with hnew | hold
    · right
      obtain ⟨id, hnew, rfl⟩ := List.mem_map.mp hnew
      split_ifs at hnew with hscheduled
      · rcases hpolled with rfl | ⟨row, hfind, -, hrow⟩
        · cases hscheduled
        · obtain ⟨polled, hget, hset⟩ := hrow.scheduled hscheduled
          have hcode : s.db.ofCode service input = some row := hfind
          rw [hcode] at hnew
          cases List.mem_singleton.mp hnew
          refine ⟨?_, row, polled, hrow.found, hget, hset⟩
          unfold System.polling
          dsimp only
          rw [hcode]
          exact List.mem_singleton_self _
      · cases hnew
    · exact .inl hold
  · by_cases hearly : answer.early = true
    · right
      rcases hpolled with rfl | ⟨row, hfind, -, hrow⟩
      · cases hearly
      · obtain ⟨polled, hget, hset⟩ := hrow.scheduled (PollAnswer.early_scheduled hearly)
        have hcode : s.db.ofCode service input = some row := hfind
        refine ⟨row, polled, now, ?_, hrow.found, hget, hrow.early hearly, hset⟩
        dsimp only
        rw [if_pos hearly, hcode]
        rfl
    · left
      dsimp only
      rw [if_neg hearly]
      rfl

theorem attempted (service : Service) {s : System} (h : Sound s.db) (a : Action) : Attempted service s a := by
  cases a with
  | setUser id active =>
    refine .inl ⟨_, rfl, Change.one (.users (s.db.users.set id active) fun user hhas => ?_), fun _ hmem => hmem,
      fun _ hmem => hmem, fun _ => .inl, fun _ => .inl, .inl rfl, fun _ hmem => hmem⟩
    rw [OrdMap.has_iff] at hhas ⊢
    exact OrdMap.mem_keys_set.mpr (.inr hhas)
  | createAuthorization input =>
    rcases createAuthorization_cases h service.options input with hok | herror
    · exact attempted_put rfl rfl hok
    · exact .inr ⟨.invalid_device_metadata, attempt_error rfl herror, .inl (.inl rfl)⟩
  | lookupByHumanCode human_code_hash now => exact attempted_put rfl rfl (lookupByHumanCode_spec h human_code_hash now)
  | getDecisionCandidate id now => exact attempted_put rfl rfl (getDecisionCandidate_spec h id now)
  | getOwnedAuthorization id owner now => exact attempted_put rfl rfl (getOwnedAuthorization_spec h id owner now)
  | approve id human_code_hash owner now =>
    obtain ⟨answer, db', hok, hchanges⟩ := approve_spec
      (e := ⟨⟨id, human_code_hash, owner, decide (s.db.users.get? owner = some true)⟩ :: s.approvals, s.redemptions, []⟩)
      h id human_code_hash owner now (fun hactive => by simp [hactive])
    refine .inl ⟨System.put { s with approvals :=
      ⟨id, human_code_hash, owner, decide (s.db.users.get? owner = some true)⟩ :: s.approvals } (answer, db'), ?_,
      hchanges, fun _ hmem => List.mem_cons_of_mem _ hmem, fun _ hmem => hmem, fun _ => .inl, fun _ => .inl, .inl rfl,
      fun _ hmem => hmem⟩
    dsimp only [attempt]
    rw [hok]
    rfl
  | deny id human_code_hash user now => exact attempted_put rfl rfl (deny_spec h id human_code_hash user now)
  | poll input now => exact attempted_poll h input now
  | redeem i device_id credential_id now =>
    cases hfound : s.redemptions[i]? with
    | none =>
      refine .inl ⟨s, ?_, .refl service s _⟩
      dsimp only [attempt]
      rw [hfound]
    | some redemption =>
      have hattempt : attempt service s (.redeem i device_id credential_id now) = s.put <$> Identity.redeem s.db
          ⟨redemption, device_id, credential_id, now, now + service.options.redemptionResultTtlMs⟩ := by
        dsimp only [attempt]
        rw [hfound]
      rcases redeem_cases h ⟨redemption, device_id, credential_id, now, now + service.options.redemptionResultTtlMs⟩
        (e := ⟨s.approvals, s.redemptions, []⟩) (List.mem_of_getElem? hfound) with hok | ⟨herror, hstale⟩
      · exact attempted_put hattempt rfl hok
      · refine .inr ⟨.constraint, attempt_error hattempt herror, .inr fun hnamed => hstale ⟨hnamed.1, hnamed.2, ?_⟩⟩
        exact lt_add_of_pos_right _ service.options.result_ttl_pos
  | revoke fenced input =>
    rcases revoke_cases h fenced input with hok | herror | herror | ⟨herror, rfl⟩ | ⟨herror, hreason⟩
    · exact attempted_put rfl rfl hok
    · exact .inr ⟨.device_not_found, attempt_error rfl herror, .inl (.inr (.inl rfl))⟩
    · exact .inr ⟨.revocation_not_authorized, attempt_error rfl herror, .inl (.inr (.inr (.inl rfl)))⟩
    · exact .inr ⟨.cancellation_scope_conflict, attempt_error rfl herror, .inl (.inr (.inr (.inr ⟨rfl, input, rfl⟩)))⟩
    · exact .inr ⟨.constraint, attempt_error rfl herror, .inr hreason⟩
  | consumeRequestId input =>
    exact .inl ⟨_, rfl, consumeRequestId_changes _ _ _, fun _ hmem => hmem, fun _ hmem => hmem, fun _ => .inl,
      fun _ => .inl, .inl rfl, fun _ => id⟩
  | consumeLegacyRequestId input =>
    exact .inl ⟨_, rfl, insertReplay_changes _ _ _ _, fun _ hmem => hmem, fun _ hmem => hmem, fun _ => .inl,
      fun _ => .inl, .inl rfl, fun _ => id⟩

theorem step_called (service : Service) {s : System} (h : Sound s.db) (a : Action) : Called service s (s.polling service a) (step service s a) := by
  unfold step
  rcases attempted service h a with ⟨s', hok, hcalled⟩ | ⟨error, herror, -⟩
  · rw [hok]
    exact hcalled
  · rw [herror]
    exact .refl service s _

end

/-! ### Whole runs -/

def sampleKey : CanonicalDevicePublicKey where
  canonical_spki_der := [48, 42, 48, 5]
  fingerprint := String.ofList (List.replicate 64 'a')
  der_nonempty := by simp
  fingerprint_hex := by decide +kernel

def sampleCode (version : ℕ) (byte : UInt8) (hversion : 0 < version) : HashedEnrollmentCode where
  version := version
  key_id := "key-1"
  keyed_hash := List.replicate 32 byte
  version_pos := hversion
  key_id_nonempty := by decide
  hash_length := List.length_replicate

def sampleService : Service where
  options := ⟨600000, 300000, 5, by decide, by decide, by decide⟩
  hashDeviceCode _ := sampleCode 1 7 Nat.one_pos
  canonicalDevicePublicKey pem := if pem = "public-key" then some sampleKey else none
  verifyEnrollmentProof _ _ signature := decide (signature = "signature")

def samplePoll : PollInput := ⟨String.ofList (List.replicate 43 'A'), some "public-key", some "signature"⟩

/-- A request that a user has approved. -/
def sampleStart : List Action :=
  [.setUser "user-1" true,
    .createAuthorization ⟨"request-1", sampleCode 1 7 Nat.one_pos, sampleCode 1 8 Nat.one_pos, sampleKey, "Laptop",
      .macos, "arm64", 0⟩,
    .poll samplePoll 1000]

/-- Its redemption. -/
def sampleEnrollment : List Action :=
  sampleStart ++ [.approve "request-1" (sampleCode 1 8 Nat.one_pos) "user-1" 2000, .poll samplePoll 7000,
    .redeem 0 "device-1" "credential-1" 7001]

def sampleIdentity : DeviceIdentity := ⟨"device-1", "credential-1", 1⟩

section

variable (service : Service)

/-- What holds of every state. -/
structure Inv (s : System) : Prop where
  sound : Sound s.db
  traced : Traced ⟨s.approvals, s.redemptions, []⟩ s.db
  proven : ∀ redemption ∈ s.redemptions, Proven service s.inputs s.db redemption

theorem inv_initial : Inv service initial where
  sound := sound_empty .empty
  traced := ⟨fun _ _ h => (by cases h), fun _ _ h => (by cases h)⟩
  proven _ h := by cases h

theorem inv_step (s : System) (a : Action) (h : Inv service s) : Inv service (step service s a) := by
  have hcalled := step_called service h.sound a
  refine ⟨h.sound.changes hcalled.changes, ?_, fun redemption hmem => ?_⟩
  · have hbefore : Traced ⟨(step service s a).approvals, s.redemptions, s.polling service a⟩ s.db :=
      h.traced.mono hcalled.approvals (fun _ hmem => hmem)
    exact (hcalled.changes.keeps (fun hchange h => h.change hchange) hbefore).mono (fun _ hmem => hmem) hcalled.redemptions
  · rcases hcalled.proven redemption hmem with hold | hnew
    · exact (hcalled.changes.keeps (P := fun db => Proven service s.inputs db redemption)
        (fun hchange h => h.change hchange) (h.proven redemption hold)).mono hcalled.inputs
    · exact hnew

theorem inv_run (as : List Action) : Inv service (run (step service) initial as) :=
  run_induct' (I := Inv service) (inv_step service) (inv_initial service) as

/-- What each change of sound tables keeps holds in every later state. -/
theorem run_keeps {P : Database → Prop}
    (hkeeps : ∀ {e : Evidence} {db db' : Database}, Change e db db' → P db → P db') {s : System} (h : Inv service s)
    (hp : P s.db) (as : List Action) : P (run (step service) s as).db := by
  refine (run_induct' (I := fun s => Inv service s ∧ P s.db) (fun s a hs => ⟨inv_step service s a hs.1, ?_⟩) ⟨h, hp⟩ as).2
  exact (step_called service hs.1.sound a).changes.keeps hkeeps hs.2

theorem inputs_put {α : Type} (s : System) (x : Except IdentityError (α × Database)) :
    (commit s (s.put <$> x)).inputs = s.inputs := by
  cases x <;> rfl

/-- What is polled with after a call. -/
theorem inputs_step (s : System) (a : Action) {input : PollInput} (hmem : input ∈ (step service s a).inputs) :
    input ∈ s.inputs ∨ ∃ now, a = .poll input now := by
  have hkept : (∀ input now, a ≠ .poll input now) → (step service s a).inputs = s.inputs := by
    intro hother
    unfold step
    cases a with
    | poll input now => exact absurd rfl (hother input now)
    | setUser => rfl
    | createAuthorization => exact inputs_put s _
    | lookupByHumanCode => exact inputs_put s _
    | getDecisionCandidate => exact inputs_put s _
    | getOwnedAuthorization => exact inputs_put s _
    | approve id human_code_hash owner now =>
      dsimp only [attempt]
      cases Identity.approve s.db id human_code_hash owner now <;> rfl
    | deny => exact inputs_put s _
    | redeem i device_id credential_id now =>
      dsimp only [attempt]
      split
      · rfl
      · exact inputs_put s _
    | revoke => exact inputs_put s _
    | consumeRequestId => rfl
    | consumeLegacyRequestId => rfl
  cases a with
  | poll other now =>
    unfold step at hmem
    dsimp only [attempt] at hmem
    cases hserved : servicePoll service.hashDeviceCode service.canonicalDevicePublicKey service.verifyEnrollmentProof s.db
      other now with
    | error error =>
      rw [hserved] at hmem
      exact .inl hmem
    | ok served =>
      rw [hserved] at hmem
      rcases List.mem_cons.mp hmem with rfl | hold
      · exact .inr ⟨now, rfl⟩
      · exact .inl hold
  | _ =>
    rw [hkept (by rintro _ _ ⟨⟩)] at hmem
    exact .inl hmem

theorem inputs_run : ∀ (as : List Action) (s : System) {input : PollInput},
    input ∈ (run (step service) s as).inputs → input ∈ s.inputs ∨ ∃ now, .poll input now ∈ as
  | [], _, _, hmem => .inl hmem
  | a :: as, s, input, hmem => by
    rcases inputs_run as (step service s a) hmem with hstep | ⟨now, hlater⟩
    · rcases inputs_step service s a hstep with hold | ⟨now, rfl⟩
      · exact .inl hold
      · exact .inr ⟨now, List.mem_cons_self⟩
    · exact .inr ⟨now, List.mem_cons_of_mem _ hlater⟩

/-- **Devices are approved by their owners.** In every state, each credential belongs to an active request for its key
and to a device of the user who approved that request, while their account was active, with the code of the request and
before it expired; and it was redeemed before then too, as it was asked for by a poll with a verified proof of possession
of that key. -/
theorem enrolled_by_approval (as : List Action) (id : String) (credential : StoredCredential)
    (hget : (run (step service) initial as).db.credentials.get? id = some credential) :
    ∃ row device owner, (run (step service) initial as).db.requests.get? row.id = some row ∧ row.state = .active ∧
      row.redeemed_device_id = some credential.device_id ∧ row.redeemed_credential_id = some id ∧
      row.key = credential.key ∧
      (run (step service) initial as).db.devices.get? credential.device_id = some device ∧
      device.owner_user_id = some owner ∧
      ⟨row.id, row.user_code_hash, owner, true⟩ ∈ (run (step service) initial as).approvals ∧
      ⟨row.id, row.device_code_hash, row.key.fingerprint⟩ ∈ (run (step service) initial as).redemptions ∧
      (∃ input now, .poll input now ∈ as ∧ Possessed service input row) ∧
      (∃ t ∈ row.approved_at, t < row.expires_at) ∧ ∃ t ∈ row.redeemed_at, t < row.expires_at := by
  have h := inv_run service as
  obtain ⟨row, hrow, hactive, hdevice, hid, -, hkey⟩ := h.sound.credentials id credential hget
  obtain ⟨device_id, _, _, owner, device, _, hdevice', -, -, howner, hfound, howned, -⟩ := h.sound.redeemed hrow hactive
  cases hdevice.symm.trans hdevice'
  have hcalled := h.traced.approved row.id row hrow owner howner
  have hasked := h.traced.redeemed row.id row hrow hactive
  obtain ⟨other, hother, -, -, input, hinput, hpossessed⟩ := h.proven _ hasked
  cases hrow.symm.trans hother
  obtain ⟨now, hpoll⟩ := (inputs_run service as initial hinput).resolve_left (List.not_mem_nil)
  have htime := h.sound.in_time row.id row hrow
  have happroved : row.approved_at.isSome = true := by
    rw [← row.checked.approval_pair, howner]
    rfl
  obtain ⟨approved_at, happroved⟩ := Option.isSome_iff_exists.mp happroved
  have hshape := row.checked.state_shape
  unfold StateShape at hshape
  rw [hactive] at hshape
  obtain ⟨-, -, -, -, -, -, -, redeemed_at, hredeemed, -⟩ := hshape
  exact ⟨row, device, owner, hrow, hactive, hdevice, hid, hkey, hfound, howned, hcalled, hasked,
    ⟨input, now, hpoll, hpossessed⟩,
    ⟨approved_at, happroved, htime.approved (.inr hactive) approved_at happroved⟩,
    ⟨redeemed_at, hredeemed, htime.redeemed hactive redeemed_at hredeemed⟩⟩

theorem enrolled_by_approval_sample : ∃ credential,
    (run (step sampleService) initial sampleEnrollment).db.credentials.get? "credential-1" = some credential ∧
      ∃ row, row.key = credential.key ∧
        ∃ input now, .poll input now ∈ sampleEnrollment ∧ Possessed sampleService input row := by
  have hsome : ((run (step sampleService) initial sampleEnrollment).db.credentials.get? "credential-1").isSome = true := by
    decide +kernel
  obtain ⟨credential, hget⟩ := Option.isSome_iff_exists.mp hsome
  obtain ⟨row, -, -, -, -, -, -, hkey, -, -, -, -, hpossessed, -⟩ :=
    enrolled_by_approval sampleService sampleEnrollment "credential-1" credential hget
  exact ⟨credential, hget, row, hkey, hpossessed⟩

/-- Two credentials of one device, or of one key, are one. -/
theorem Sound.apart {db : Database} (h : Sound db) {id id' : String} {credential credential' : StoredCredential}
    (hget : db.credentials.get? id = some credential) (hget' : db.credentials.get? id' = some credential')
    (hsame : credential.device_id = credential'.device_id ∨ credential.key.fingerprint = credential'.key.fingerprint) :
    id = id' := by
  obtain ⟨row, hrow, hactive, hdevice, hid, -, hkey⟩ := h.credentials id credential hget
  obtain ⟨row', hrow', hactive', hdevice', hid', -, hkey'⟩ := h.credentials id' credential' hget'
  have hrows : row.id = row'.id := by
    rcases hsame with hsame | hsame
    · exact h.redeemed_once _ _ row row' credential.device_id hrow hrow' hdevice (by rw [hsame]; exact hdevice')
    · exact h.keys _ _ row row' hrow hrow' (.inr hactive) (.inr hactive') (by rw [hkey, hkey']; exact hsame)
  rw [hrows, hrow'] at hrow
  cases hrow
  cases hid.symm.trans hid'
  rfl

/-- **Credentials are apart.** In every state no device has two credentials, no key is of two credentials, and no request
that is open has the key of a credential. -/
theorem credentials_apart (as : List Action) (id id' : String) (credential : StoredCredential)
    (hget : (run (step service) initial as).db.credentials.get? id = some credential) :
    (∀ credential', (run (step service) initial as).db.credentials.get? id' = some credential' →
      credential.device_id = credential'.device_id ∨ credential.key.fingerprint = credential'.key.fingerprint → id = id') ∧
      ∀ row, (run (step service) initial as).db.requests.get? id' = some row → row.state.live = true →
        row.key.fingerprint ≠ credential.key.fingerprint := by
  have h := (inv_run service as).sound
  refine ⟨fun credential' hget' hsame => h.apart hget hget' hsame, fun row hrow hlive hkey => ?_⟩
  obtain ⟨request, hrequest, hactive, -, -, -, hof⟩ := h.credentials id credential hget
  have hsame := h.keys id' request.id row request hrow hrequest (.inl hlive) (.inr hactive) (by rw [hof]; exact hkey)
  rw [← hsame, hrow] at hrequest
  cases hrequest
  rw [hactive] at hlive
  cases hlive

theorem credentials_apart_sample : ∃ credential,
    (run (step sampleService) initial sampleEnrollment).db.credentials.get? "credential-1" = some credential ∧
      ∀ row, (run (step sampleService) initial sampleEnrollment).db.requests.get? "request-1" = some row →
        row.state.live = true → row.key.fingerprint ≠ credential.key.fingerprint := by
  have hsome : ((run (step sampleService) initial sampleEnrollment).db.credentials.get? "credential-1").isSome = true := by
    decide +kernel
  obtain ⟨credential, hget⟩ := Option.isSome_iff_exists.mp hsome
  exact ⟨credential, hget, (credentials_apart sampleService sampleEnrollment "credential-1" "request-1" credential hget).2⟩

/-- **A redemption is answered again.** Once a request was redeemed, whoever redeems it in a later state, with its code
and its key, is answered the same identity, and nothing changes, whatever is asked for as ids. -/
theorem redemption_replayed (as bs : List Action) (id : String) (row : StoredRequest) (identity : DeviceIdentity)
    (hget : (run (step service) initial as).db.requests.get? id = some row) (hactive : row.state = .active)
    (hidentity : row.identity = some identity) (input : RedeemInput) (hid : input.authorization_request_id = id)
    (hcode : input.device_code_hash = row.device_code_hash) (hkey : input.public_key_fingerprint = row.key.fingerprint) :
    Identity.redeem (run (step service) initial (as ++ bs)).db input =
      .ok (.active identity, (run (step service) initial (as ++ bs)).db) := by
  have hlater : (run (step service) initial (as ++ bs)).db.requests.get? id = some row := by
    rw [run_append]
    refine run_keeps service (P := fun db => db.requests.get? id = some row) (fun hchange hbefore => ?_)
      (inv_run service as) hget bs
    obtain ⟨row', hafter, hkept⟩ := request_kept hchange hbefore
    rw [hkept.active hactive] at hafter
    exact hafter
  generalize (run (step service) initial (as ++ bs)).db = db at hlater
  have hselected : (db.requests.get? input.authorization_request_id).filter
      (fun row => row.device_code_hash = input.device_code_hash) = some row := by
    rw [hid, hlater, hcode]
    simp
  have hkept : db.expireIfDue row input.now = .ok (row, db) := if_pos (.inl (by rw [hactive]; rfl))
  unfold redeem
  rw [hselected]
  dsimp only
  rw [hkept, ok_bind]
  dsimp only
  rw [hidentity, if_neg (by rw [hactive]; decide), if_neg (by rw [hkey, hactive]; simp), if_pos hactive]
  rfl

theorem redemption_replayed_sample :
    Identity.redeem (run (step sampleService) initial (sampleEnrollment ++ [.setUser "user-1" false])).db
        ⟨⟨"request-1", sampleCode 1 7 Nat.one_pos, sampleKey.fingerprint⟩, "device-2", "credential-2", 9000, 309000⟩ =
      .ok (.active sampleIdentity,
        (run (step sampleService) initial (sampleEnrollment ++ [.setUser "user-1" false])).db) := by
  have hrow : ((run (step sampleService) initial sampleEnrollment).db.requests.get? "request-1").map
      (fun row => (row.state, row.identity, row.device_code_hash, row.key.fingerprint)) =
      some (.active, some sampleIdentity, sampleCode 1 7 Nat.one_pos, sampleKey.fingerprint) := by decide +kernel
  obtain ⟨row, hget, hfields⟩ := Option.map_eq_some_iff.mp hrow
  simp only [Prod.mk.injEq] at hfields
  obtain ⟨hactive, hidentity, hcode, hkey⟩ := hfields
  exact redemption_replayed sampleService sampleEnrollment [.setUser "user-1" false] "request-1" row sampleIdentity hget
    hactive hidentity _ rfl hcode.symm hkey.symm

/-- The device is revoked, with the credential of this key. -/
def Out (device_id fingerprint : String) (db : Database) : Prop :=
  (∃ device, db.devices.get? device_id = some device ∧ device.lifecycle = .revoked) ∧
    ∃ id credential, db.credentials.get? id = some credential ∧ credential.device_id = device_id ∧
      credential.key.fingerprint = fingerprint

theorem out_change {e : Evidence} {db db' : Database} {device_id fingerprint : String} (hchange : Change e db db')
    (h : Out device_id fingerprint db) : Out device_id fingerprint db' := by
  obtain ⟨⟨device, hdevice, hrevoked⟩, id, credential, hget, hof, hkey⟩ := h
  obtain ⟨credential', hget', hof', hkey'⟩ := credential_after hchange hget
  exact ⟨revoked_after hchange hdevice hrevoked, id, credential', hget', hof'.trans hof, by rw [hkey']; exact hkey⟩

/-- What is current has an active device. -/
theorem current_active {db : Database} {identity : DeviceIdentity} {credential : StoredCredential}
    (h : db.current identity = some credential) :
    (∃ device, db.devices.get? credential.device_id = some device ∧ device.lifecycle = .active) ∧
      credential.device_id = identity.device_id ∧ db.credentials.get? identity.credential_id = some credential := by
  unfold Database.current at h
  split at h
  · cases h
  · next device found status hcandidate =>
    split_ifs at h with hcurrent
    cases h
    unfold Database.candidate at hcandidate
    simp only [Option.bind_eq_bind, Option.bind_eq_some_iff] at hcandidate
    obtain ⟨device', hdevice, credential', hcredential, owner, -, status', -, hpair⟩ := hcandidate
    split_ifs at hpair with hof
    cases hpair
    exact ⟨⟨device, by rw [hof]; exact hdevice, hcurrent.1⟩, hof, hcredential⟩

/-- **A revoked device is out.** From the moment a device is revoked, in every later state nothing that it signs is
authenticated or consumed, and no other device or credential with its key is, whatever is enrolled then. -/
theorem revoked_out (as bs : List Action) (id device_id : String) (credential : StoredCredential) (device : StoredDevice)
    (hdevice : (run (step service) initial as).db.devices.get? device_id = some device)
    (hrevoked : device.lifecycle = .revoked)
    (hget : (run (step service) initial as).db.credentials.get? id = some credential)
    (hof : credential.device_id = device_id) :
    (∀ identity : DeviceIdentity, identity.device_id = device_id →
      (∀ edVerify versions request, request.identity = identity →
        authenticate edVerify versions (run (step service) initial (as ++ bs)).db request = none) ∧
      ∀ input : ReplayInput, input.identity = identity →
        Identity.consumeRequestId (run (step service) initial (as ++ bs)).db input =
          (.inactive, (run (step service) initial (as ++ bs)).db)) ∧
      ∀ identity other, (run (step service) initial (as ++ bs)).db.current identity = some other →
        other.key.fingerprint ≠ credential.key.fingerprint := by
  have hlater : Out device_id credential.key.fingerprint (run (step service) initial (as ++ bs)).db := by
    rw [run_append]
    exact run_keeps service (P := Out device_id credential.key.fingerprint) out_change (inv_run service as)
      ⟨⟨device, hdevice, hrevoked⟩, id, credential, hget, hof, rfl⟩ bs
  have hsound := (inv_run service (as ++ bs)).sound
  generalize (run (step service) initial (as ++ bs)).db = db at hlater hsound
  obtain ⟨⟨device', hdevice', hrevoked'⟩, id', credential', hget', hof', hkey'⟩ := hlater
  -- a current credential is of an active device, so not of this one
  have hnone : ∀ identity : DeviceIdentity, identity.device_id = device_id → db.current identity = none := by
    intro identity hsame
    cases hcurrent : db.current identity with
    | none => rfl
    | some other =>
      obtain ⟨⟨active, hactive, hstate⟩, hdevice_id, -⟩ := current_active hcurrent
      rw [hdevice_id, hsame, hdevice'] at hactive
      cases hactive
      cases hrevoked'.symm.trans hstate
  refine ⟨fun identity hsame => ⟨fun edVerify versions request hrequest => ?_, fun input hinput => ?_⟩,
    fun identity other hcurrent hkey => ?_⟩
  · subst hrequest
    unfold authenticate
    rw [hnone _ hsame]
    cases db.candidate request.identity.device_id request.identity.credential_id with
    | none => simp
    | some found => simp
  · subst hinput
    unfold Identity.consumeRequestId
    rw [hnone _ hsame]
    rfl
  · obtain ⟨⟨active, hactive, hstate⟩, -, hother⟩ := current_active hcurrent
    cases hsound.apart hget' hother (.inr (hkey'.trans hkey.symm))
    cases hget'.symm.trans hother
    rw [hof', hdevice'] at hactive
    cases hactive
    cases hrevoked'.symm.trans hstate

/-- The device is revoked. -/
def sampleRevoked : List Action := sampleEnrollment ++ [.revoke true ⟨"device-1", "user-1", "lost", 8000⟩]

theorem revoked_out_sample :
    Identity.consumeRequestId (run (step sampleService) initial (sampleRevoked ++ [.poll samplePoll 20000])).db
        ⟨"call-1", sampleIdentity, "context", 20000, 20000⟩ =
      (.inactive, (run (step sampleService) initial (sampleRevoked ++ [.poll samplePoll 20000])).db) := by
  have hdevice : ((run (step sampleService) initial sampleRevoked).db.devices.get? "device-1").map
      (fun device => device.lifecycle) = some .revoked := by decide +kernel
  have hcredential : ((run (step sampleService) initial sampleRevoked).db.credentials.get? "credential-1").map
      (fun credential => credential.device_id) = some "device-1" := by decide +kernel
  obtain ⟨device, hdevice, hrevoked⟩ := Option.map_eq_some_iff.mp hdevice
  obtain ⟨credential, hget, hof⟩ := Option.map_eq_some_iff.mp hcredential
  exact ((revoked_out sampleService sampleRevoked [.poll samplePoll 20000] "credential-1" "device-1" credential device
    hdevice hrevoked hget hof).1 sampleIdentity rfl).2 _ rfl

/-- The clock does not run back between polls. -/
def Ordered (s : System) : Action → Prop
  | .poll _ now => ∀ q ∈ s.polls, q.2 ≤ now
  | _ => True

/-- The next time of a request is an interval after this time. -/
def Spaced (db : Database) (id : String) (t : ℤ) : Prop :=
  ∃ row, db.requests.get? id = some row ∧ t + row.effective_poll_interval_seconds * 1000 ≤ row.next_poll_at

theorem spaced_polled {row : StoredRequest} {now t : ℤ} (hlater : t ≤ now) :
    t + (row.polled now).effective_poll_interval_seconds * 1000 ≤ (row.polled now).next_poll_at := by
  unfold StoredRequest.polled
  split_ifs
  · show t + ((row.effective_poll_interval_seconds + 5 : ℕ) : ℤ) * 1000 ≤
      now + ((row.effective_poll_interval_seconds : ℤ) + 5) * 1000
    push_cast
    omega
  · show t + (row.effective_poll_interval_seconds : ℤ) * 1000 ≤ now + (row.effective_poll_interval_seconds : ℤ) * 1000
    omega

theorem spaced_change {e : Evidence} {db db' : Database} {id : String} {t : ℤ} (hlater : ∀ p ∈ e.polls, t ≤ p.2)
    (hchange : Change e db db') (h : Spaced db id t) : Spaced db' id t := by
  obtain ⟨row, hget, hspaced⟩ := h
  cases hchange with
  | users => exact ⟨row, hget, hspaced⟩
  | moved old new found moved references schedule =>
    by_cases heq : id = old.id
    · subst heq
      cases found.symm.trans hget
      exact ⟨new, OrdMap.get?_set_self _ _ _, by rw [schedule.1, schedule.2.1]; exact hspaced⟩
    · exact ⟨row, (OrdMap.get?_set_ne _ _ (Ne.symm heq)).trans hget, hspaced⟩
  | polled old new now found live hrow asked =>
    by_cases heq : id = old.id
    · subst heq
      exact ⟨new, OrdMap.get?_set_self _ _ _, by rw [hrow]; exact spaced_polled (hlater _ asked)⟩
    · exact ⟨row, (OrdMap.get?_set_ne _ _ (Ne.symm heq)).trans hget, hspaced⟩
  | created new pending unique =>
    refine ⟨row, (OrdMap.get?_set_ne _ _ fun heq => ?_).trans hget, hspaced⟩
    rw [← heq] at hget
    exact absurd (unique.1.symm.trans (has_of_get? hget)) (by decide)
  | redeemed old new input owner device credential found proven state approved due fresh fresh_credential request_row =>
    by_cases heq : id = old.id
    · subst heq
      cases found.symm.trans hget
      exact ⟨new, OrdMap.get?_set_self _ _ _, by rw [request_row]; exact hspaced⟩
    · exact ⟨row, (OrdMap.get?_set_ne _ _ (Ne.symm heq)).trans hget, hspaced⟩
  | revoked => exact ⟨row, hget, hspaced⟩
  | consumed => exact ⟨row, hget, hspaced⟩

/-- The interval of a request has grown with each of so many polls. -/
def Grown (id : String) (early : ℕ) (db : Database) : Prop :=
  (early ≠ 0 → db.requests.has id = true) ∧ ∀ row, db.requests.get? id = some row →
    row.poll_interval_seconds + 5 * early ≤ row.effective_poll_interval_seconds

theorem polled_interval (row : StoredRequest) (now : ℤ) :
    (row.polled now).poll_interval_seconds = row.poll_interval_seconds ∧
      row.effective_poll_interval_seconds ≤ (row.polled now).effective_poll_interval_seconds ∧
        (now < row.next_poll_at →
          row.effective_poll_interval_seconds + 5 ≤ (row.polled now).effective_poll_interval_seconds) := by
  unfold StoredRequest.polled
  split_ifs with hearly
  · exact ⟨rfl, Nat.le_add_right _ 5, fun _ => le_rfl⟩
  · exact ⟨rfl, le_rfl, fun h => absurd h hearly⟩

/-- A request is set, with an interval that is not shorter. -/
theorem Grown.set {id : String} {early : ℕ} {db db' : Database} {old new : StoredRequest} (h : Grown id early db)
    (found : db.requests.get? old.id = some old) (hset : db'.requests = db.requests.set old.id new)
    (hsame : new.poll_interval_seconds = old.poll_interval_seconds)
    (hle : old.effective_poll_interval_seconds ≤ new.effective_poll_interval_seconds) : Grown id early db' := by
  unfold Grown
  rw [hset]
  refine ⟨fun hearly => OrdMap.has_iff.mpr (OrdMap.mem_keys_set.mpr (.inr (OrdMap.has_iff.mp (h.1 hearly)))),
    fun row hget => ?_⟩
  rcases get?_set_cases hget with ⟨rfl, rfl⟩ | ⟨-, hget⟩
  · have hbefore := h.2 old found
    omega
  · exact h.2 row hget

theorem grown_change {e : Evidence} {db db' : Database} {id : String} {early : ℕ} (hchange : Change e db db')
    (h : Grown id early db) : Grown id early db' := by
  cases hchange with
  | users => exact h
  | moved old new found moved references schedule => exact h.set found rfl schedule.2.2 schedule.2.1.ge
  | polled old new now found live hrow asked =>
    obtain ⟨hsame, hle, -⟩ := polled_interval old now
    exact h.set found rfl (by rw [hrow]; exact hsame) (by rw [hrow]; exact hle)
  | created new pending unique =>
    refine ⟨fun hearly => OrdMap.has_iff.mpr (OrdMap.mem_keys_set.mpr (.inr (OrdMap.has_iff.mp (h.1 hearly)))),
      fun row hget => ?_⟩
    rcases get?_set_cases hget with ⟨rfl, heq⟩ | ⟨-, hget⟩
    · -- a request that is new was not polled
      have hnone : early = 0 := by
        by_contra hearly
        exact absurd (unique.1.symm.trans (h.1 hearly)) (by decide)
      have hchecked := row.checked.polling.2
      omega
    · exact h.2 row hget
  | redeemed old new input owner device credential found proven state approved due fresh fresh_credential request_row =>
    exact h.set found rfl (by rw [request_row]; rfl) (by rw [request_row]; exact le_rfl)
  | revoked => exact h
  | consumed => exact h

theorem grown_step {s : System} (h : Inv service s) (hgrown : ∀ id, Grown id (s.slowed.count id) s.db) (a : Action) :
    ∀ id, Grown id ((step service s a).slowed.count id) (step service s a).db := by
  have hcalled := step_called service h.sound a
  intro id
  have hkept := hcalled.changes.keeps grown_change (hgrown id)
  rcases hcalled.slowed with hsame | ⟨row, polled, now, hslowed, hbefore, hafter, hearly, hset⟩
  · rw [hsame]
    exact hkept
  · rw [hslowed]
    by_cases heq : id = row.id
    · subst heq
      rw [List.count_cons_self]
      refine ⟨fun _ => has_of_get? hafter, fun other hget => ?_⟩
      cases hafter.symm.trans hget
      obtain ⟨hinterval, -, hgrows⟩ := polled_interval row now
      have hrow := (hgrown row.id).2 row hbefore
      have hlonger := hgrows hearly
      rw [hset, hinterval]
      omega
    · rw [List.count_cons_of_ne (Ne.symm heq)]
      exact hkept

theorem spaced_step {s : System} {a : Action} (h : Inv service s) (hordered : Ordered s a)
    (hspaced : ∀ q ∈ s.polls, Spaced s.db q.1 q.2) :
    ∀ q ∈ (step service s a).polls, Spaced (step service s a).db q.1 q.2 := by
  have hcalled := step_called service h.sound a
  intro q hmem
  rcases hcalled.polls q hmem with hold | ⟨-, row, polled, -, hget, hset⟩
  · have hlater : ∀ p ∈ s.polling service a, q.2 ≤ p.2 := by
      intro p hp
      cases a with
      | poll input now =>
        obtain ⟨row, -, rfl⟩ := Option.map_eq_some_iff.mp (Option.mem_toList.mp hp)
        exact hordered q hold
      | _ => cases hp
    exact hcalled.changes.keeps (spaced_change hlater) (hspaced q hold)
  · exact ⟨polled, hget, by rw [hset]; exact spaced_polled le_rfl⟩

/-- **Polls are spaced.** Where the clock does not run back, a poll is answered only when the whole interval of its
request has passed since every earlier poll of it, answered or not; and the interval has grown by five seconds with each
poll that came too early. -/
theorem polls_spaced (as : List Action) (hordered : Along (step service) Ordered initial as) (input : PollInput) (now : ℤ)
    (answer : PollAnswer) (db' : Database)
    (hpoll : Identity.poll (run (step service) initial as).db (service.hashDeviceCode input.device_code) now =
      .ok (answer, db'))
    (hanswered : (∃ seconds, answer = .authorization_pending seconds) ∨
      ∃ record, answer = .approved_pending_redemption record) :
    ∃ row, (run (step service) initial as).db.ofCode service input = some row ∧
      row.poll_interval_seconds + 5 * (run (step service) initial as).slowed.count row.id ≤
        row.effective_poll_interval_seconds ∧
      ∀ t, (row.id, t) ∈ (run (step service) initial as).polls → t + row.effective_poll_interval_seconds * 1000 ≤ now := by
  have hspaced := (run_induct (I := fun s => Inv service s ∧ ∀ q ∈ s.polls, Spaced s.db q.1 q.2)
    (fun s a hs hp => ⟨inv_step service s a hs.1, spaced_step service hs.1 hp hs.2⟩)
    ⟨inv_initial service, fun q hmem => by cases hmem⟩ hordered).2
  have hgrown := (run_induct' (I := fun s => Inv service s ∧ ∀ id, Grown id (s.slowed.count id) s.db)
    (fun s a hs => ⟨inv_step service s a hs.1, grown_step service hs.1 hs.2 a⟩)
    ⟨inv_initial service, fun id => ⟨fun h => absurd rfl h, fun row hget => by cases hget⟩⟩ as).2
  obtain ⟨answer', db'', hok, -, hpolled⟩ := poll_spec (e := ⟨[], [],
    (run (step service) initial as).polling service (.poll input now)⟩) (inv_run service as).sound
    (service.hashDeviceCode input.device_code) now (fun row hfind => by
      show (row.id, now) ∈ (((run (step service) initial as).db.ofCode service input).map fun row => (row.id, now)).toList
      unfold Database.ofCode
      rw [hfind]
      simp)
  cases hpoll.symm.trans hok
  rcases hpolled with rfl | ⟨row, hfind, -, hrow⟩
  · rcases hanswered with ⟨seconds, heq⟩ | ⟨record, heq⟩ <;> cases heq
  · refine ⟨row, hfind, (hgrown row.id).2 row hrow.found, fun t hmem => ?_⟩
    obtain ⟨other, hget, hlate⟩ := hspaced (row.id, t) hmem
    cases hrow.found.symm.trans hget
    exact hlate.trans (hrow.answered hanswered)

/-- The second poll comes too early, and the third one in time. -/
def sampleHaste : List Action := sampleStart ++ [.poll samplePoll 2000]

theorem polls_spaced_sample : ∃ row, (run (step sampleService) initial sampleHaste).db.ofCode sampleService samplePoll =
      some row ∧ (run (step sampleService) initial sampleHaste).slowed.count row.id = 1 ∧
      row.poll_interval_seconds + 5 * (run (step sampleService) initial sampleHaste).slowed.count row.id ≤
        row.effective_poll_interval_seconds ∧
      ∀ t, (row.id, t) ∈ (run (step sampleService) initial sampleHaste).polls →
        t + row.effective_poll_interval_seconds * 1000 ≤ 12000 := by
  have hpending : (match Identity.poll (run (step sampleService) initial sampleHaste).db
      (sampleService.hashDeviceCode samplePoll.device_code) 12000 with
      | .ok (.authorization_pending _, _) => true
      | _ => false) = true := by decide +kernel
  have hslowed : (run (step sampleService) initial sampleHaste).slowed = ["request-1"] := by decide +kernel
  have hcode : ((run (step sampleService) initial sampleHaste).db.ofCode sampleService samplePoll).map
      (fun row => row.id) = some "request-1" := by decide +kernel
  have hfirst : (run (step sampleService) initial (sampleStart.take 2)).polls = [] := by decide +kernel
  have hsecond : (run (step sampleService) initial sampleStart).polls = [("request-1", 1000)] := by decide +kernel
  have hordered : Along (step sampleService) Ordered initial sampleHaste := by
    refine ⟨trivial, trivial, ?_, ?_, trivial⟩
    · intro q hmem
      have hmem : q ∈ (run (step sampleService) initial (sampleStart.take 2)).polls := hmem
      rw [hfirst] at hmem
      cases hmem
    · intro q hmem
      have hmem : q ∈ (run (step sampleService) initial sampleStart).polls := hmem
      rw [hsecond] at hmem
      rw [List.mem_singleton.mp hmem]
      decide
  split at hpending
  · next seconds db' hpoll =>
    obtain ⟨row, hfound, hgrown, hspaced⟩ := polls_spaced sampleService sampleHaste hordered samplePoll 12000
      (.authorization_pending seconds) db' hpoll (.inl ⟨seconds, rfl⟩)
    refine ⟨row, hfound, ?_, hgrown, hspaced⟩
    have hid : row.id = "request-1" := by
      rw [hfound] at hcode
      exact Option.some.inj hcode
    rw [hslowed, hid]
    rfl
  · cases hpending

end

end Norns.Devices.Identity
