import Mathlib.Logic.Relation
import Norns.Devices.Identity

/-! # What the services of identities write

Each service reads and writes in one transaction. `Change` is what one write does to the tables; a service makes some
of them in a row. What the tables hold, `Sound`, is what each change keeps, and under it no write is refused.

* `checked_expired`, …, `checked_device`: what is written meets the constraints;
* `expireIfDue_spec`, …, `revoke_spec`: what each service returns and writes;
* `Sound.change`: what the tables hold. -/

namespace Norns.Devices.Identity

open Norns.Lib Norns.Lib.Transaction

variable {db db' : Database} {old : StoredRequest} {new : AuthorizationRow} {now : ℤ} {owner : String}

/-! ### Rows -/

/-- A request that is open has no later column set. -/
theorem live_shape (row : StoredRequest) (hlive : row.state.live = true) :
    row.denied_by_user_id = none ∧ row.denied_at = none ∧ row.expired_at = none ∧
      Unredeemed row.toAuthorizationRow ∧
      (row.state = .approved_pending_redemption → row.approved_by_user_id.isSome = true) := by
  have hshape := row.checked.state_shape
  unfold StateShape at hshape
  cases hstate : row.state with
  | pending =>
    rw [hstate] at hshape
    exact ⟨hshape.2.1, hshape.2.2.1, hshape.2.2.2.1, hshape.2.2.2.2, fun h => by cases h⟩
  | approved_pending_redemption =>
    rw [hstate] at hshape
    exact ⟨hshape.2.1, hshape.2.2.1, hshape.2.2.2.1, hshape.2.2.2.2, fun _ => hshape.1⟩
  | active =>
    rw [hstate] at hlive
    cases hlive
  | denied =>
    rw [hstate] at hlive
    cases hlive
  | expired =>
    rw [hstate] at hlive
    cases hlive

theorem checked_expired (row : StoredRequest) (hlive : row.state.live = true) (now : ℤ) :
    Checked (row.expired now) := by
  obtain ⟨hdenied, hdenied_at, -, hunredeemed, -⟩ := live_shape row hlive
  exact ⟨row.checked.summary, row.checked.polling, row.checked.expiry, row.checked.approval_pair,
    ⟨hdenied, hdenied_at, rfl, hunredeemed⟩⟩

theorem checked_approved (row : StoredRequest) (hlive : row.state.live = true) (owner : String) (now : ℤ) :
    Checked (row.approved owner now) := by
  obtain ⟨hdenied, hdenied_at, hexpired, hunredeemed, -⟩ := live_shape row hlive
  exact ⟨row.checked.summary, row.checked.polling, row.checked.expiry, rfl,
    ⟨rfl, hdenied, hdenied_at, hexpired, hunredeemed⟩⟩

theorem checked_denied (row : StoredRequest) (hlive : row.state.live = true) (user : String) (now : ℤ) :
    Checked (row.denied user now) := by
  obtain ⟨-, -, hexpired, hunredeemed, -⟩ := live_shape row hlive
  exact ⟨row.checked.summary, row.checked.polling, row.checked.expiry, row.checked.approval_pair,
    ⟨rfl, rfl, hexpired, hunredeemed⟩⟩

theorem checked_polled (row : StoredRequest) (now : ℤ) : Checked (row.polled now) := by
  obtain ⟨hinterval, hslow⟩ := row.checked.polling
  have hshape := row.checked.state_shape
  unfold StoredRequest.polled
  split_ifs
  · refine ⟨row.checked.summary, ⟨hinterval, ?_⟩, row.checked.expiry, row.checked.approval_pair, hshape⟩
    show row.poll_interval_seconds + (row.slow_down_count + 1) * 5 ≤ row.effective_poll_interval_seconds + 5
    omega
  · exact ⟨row.checked.summary, ⟨hinterval, hslow⟩, row.checked.expiry, row.checked.approval_pair, hshape⟩

theorem checked_redeemed (row : StoredRequest) (happroved : row.state = .approved_pending_redemption)
    (input : RedeemInput) (hlater : input.now < input.redemption_result_expires_at) :
    Checked (row.redeemed input) := by
  obtain ⟨hdenied, hdenied_at, hexpired, -, howner⟩ := live_shape row (by rw [happroved]; rfl)
  exact ⟨row.checked.summary, row.checked.polling, row.checked.expiry, row.checked.approval_pair,
    ⟨howner happroved, hdenied, hdenied_at, hexpired, rfl, rfl, rfl, input.now, rfl,
      input.redemption_result_expires_at, rfl, hlater⟩⟩

theorem checked_device (row : StoredRequest) (owner : String) (now : ℤ) : DeviceChecked (row.device owner now) :=
  ⟨row.checked.summary.1, row.checked.summary.2.2, fun _ => rfl, ⟨fun _ => rfl, fun _ => rfl⟩⟩

/-- The generation of a device is not checked by its table. -/
theorem checked_generation {row : DeviceRow} (h : DeviceChecked row) (generation : ℕ) :
    DeviceChecked { row with current_generation := generation } :=
  ⟨h.name, h.architecture, h.active_owner, h.lifecycle_shape⟩

theorem checked_credential (row : StoredRequest) (device_id : String) (now : ℤ) :
    CredentialChecked (row.credential device_id now) :=
  ⟨Nat.one_pos, ⟨fun _ => rfl, fun _ => rfl⟩⟩

theorem checked_revoked (device : StoredDevice) (revoked_at : ℤ) : DeviceChecked (device.revoked revoked_at) := by
  refine ⟨device.checked.name, device.checked.architecture, fun h => ?_, fun h => ?_, fun h => ?_⟩ <;> cases h

/-- What an approved or redeemed request was in time for. -/
structure InTime (row : AuthorizationRow) : Prop where
  approved : row.state = .approved_pending_redemption ∨ row.state = .active →
    ∀ t ∈ row.approved_at, t < row.expires_at
  redeemed : row.state = .active → ∀ t ∈ row.redeemed_at, t < row.expires_at

/-- An update of a request that does not redeem it. -/
structure Moved (old new : AuthorizationRow) : Prop where
  guarded : RequestGuarded old new
  id : new.id = old.id
  expires_at : new.expires_at = old.expires_at
  inactive : new.state ≠ .active
  in_time : InTime old → InTime new
  unredeemed : Unredeemed new

theorem moved_expired (row : StoredRequest) (hlive : row.state.live = true) (now : ℤ) :
    Moved row.toAuthorizationRow (row.expired now) := by
  refine ⟨⟨rfl, rfl, rfl, rfl, hlive, .inr ?_, fun _ => ⟨rfl, rfl⟩⟩, rfl, rfl, by simp [StoredRequest.expired],
    fun _ => ⟨?_, ?_⟩, (live_shape row hlive).2.2.2.1⟩
  · show AuthorizationState.expired ∈ row.state.transitions
    cases hstate : row.state <;> rw [hstate] at hlive <;> first | decide | cases hlive
  · rintro (h | h) <;> cases h
  · intro h
    cases h

theorem moved_approved (row : StoredRequest) (hpending : row.state = .pending) (owner : String)
    (hdue : now < row.expires_at) : Moved row.toAuthorizationRow (row.approved owner now) := by
  have hlive : row.state.live = true := by rw [hpending]; rfl
  refine ⟨⟨rfl, rfl, rfl, rfl, hlive, .inr ?_, fun h => ?_⟩, rfl, rfl, by simp [StoredRequest.approved],
    fun _ => ⟨?_, fun h => by cases h⟩, (live_shape row hlive).2.2.2.1⟩
  · show AuthorizationState.approved_pending_redemption ∈ row.state.transitions
    rw [hpending]
    decide
  · cases hpending.symm.trans h
  · rintro - t ht
    cases ht
    exact hdue

theorem moved_denied (row : StoredRequest) (hlive : row.state.live = true) (user : String) (now : ℤ) :
    Moved row.toAuthorizationRow (row.denied user now) := by
  refine ⟨⟨rfl, rfl, rfl, rfl, hlive, .inr ?_, fun _ => ⟨rfl, rfl⟩⟩, rfl, rfl, by simp [StoredRequest.denied],
    fun _ => ⟨?_, ?_⟩, (live_shape row hlive).2.2.2.1⟩
  · show AuthorizationState.denied ∈ row.state.transitions
    cases hstate : row.state <;> rw [hstate] at hlive <;> first | decide | cases hlive
  · rintro (h | h) <;> cases h
  · intro h
    cases h

theorem moved_polled (row : StoredRequest) (hlive : row.state.live = true) (now : ℤ) :
    Moved row.toAuthorizationRow (row.polled now) := by
  have hactive : row.state ≠ .active := by
    intro h
    rw [h] at hlive
    cases hlive
  unfold StoredRequest.polled
  split_ifs <;> exact ⟨⟨rfl, rfl, rfl, rfl, hlive, .inl rfl, fun _ => ⟨rfl, rfl⟩⟩, rfl, rfl, hactive,
    fun h => ⟨h.approved, h.redeemed⟩, (live_shape row hlive).2.2.2.1⟩

/-! ### Changes -/

/-- A call of `approve`, and whether the account of the owner was active then. -/
structure Approval where
  authorization_request_id : String
  human_code_hash : HashedEnrollmentCode
  owner_user_id : String
  active : Bool
  deriving DecidableEq

/-- The calls that changes come from: the approvals and the verified redemptions of before, and the polls of now. -/
structure Evidence where
  approvals : List Approval := []
  redemptions : List Redemption := []
  polls : List (String × ℤ) := []

/-- What one write does to the tables. -/
inductive Change (e : Evidence) (db : Database) : Database → Prop
  | users (users : OrdMap String Bool) (keeps : ∀ id, db.users.has id = true → users.has id = true) :
    Change e db { db with users := users }
  | moved (old new : StoredRequest) (found : db.requests.get? old.id = some old)
    (moved : Moved old.toAuthorizationRow new.toAuthorizationRow) (references : db.References new.toAuthorizationRow)
    (schedule : new.next_poll_at = old.next_poll_at ∧
      new.effective_poll_interval_seconds = old.effective_poll_interval_seconds ∧
        new.poll_interval_seconds = old.poll_interval_seconds)
    (approved : ∀ user ∈ new.approved_by_user_id, new.approved_by_user_id = old.approved_by_user_id ∨
      ⟨old.id, old.user_code_hash, user, true⟩ ∈ e.approvals) :
    Change e db { db with requests := db.requests.set old.id new }
  | polled (old new : StoredRequest) (now : ℤ) (found : db.requests.get? old.id = some old)
    (live : old.state.live = true) (row : new.toAuthorizationRow = old.polled now) (asked : (old.id, now) ∈ e.polls) :
    Change e db { db with requests := db.requests.set old.id new }
  | created (row : StoredRequest) (pending : row.state = .pending) (unique : db.RequestUnique row.toAuthorizationRow)
    (unused : ∀ credential ∈ db.credentials.values, credential.key.fingerprint ≠ row.key.fingerprint) :
    Change e db { db with requests := db.requests.set row.id row }
  | redeemed (old new : StoredRequest) (input : RedeemInput) (owner : String) (device : StoredDevice)
    (credential : StoredCredential) (found : db.requests.get? old.id = some old)
    (proven : ⟨old.id, old.device_code_hash, old.key.fingerprint⟩ ∈ e.redemptions)
    (state : old.state = .approved_pending_redemption) (approved : old.approved_by_user_id = some owner)
    (due : input.now < old.expires_at) (fresh : db.devices.get? input.device_id = none)
    (fresh_credential : db.credentials.get? input.credential_id = none)
    (request_row : new.toAuthorizationRow = old.redeemed input)
    (device_row : device.toDeviceRow = { old.device owner input.now with current_generation := 1 })
    (credential_row : credential.toCredentialRow = old.credential input.device_id input.now)
    (user : db.users.has owner = true) :
    Change e db { db with
      requests := db.requests.set old.id new
      devices := db.devices.set input.device_id device
      credentials := db.credentials.set input.credential_id credential }
  | revoked (device_id : String) (old new : StoredDevice) (record : RevocationRow) (revoked_at : ℤ)
    (found : db.devices.get? device_id = some old) (state : old.lifecycle = .active)
    (row : new.toDeviceRow = old.revoked revoked_at) :
    Change e db { db.revokeCredentials device_id revoked_at with
      revocations := db.revocations.set device_id record
      devices := db.devices.set device_id new }
  | consumed (replays : OrdMap String ReplayRow) (keeps : ∀ id, db.replays.has id = true → replays.has id = true) :
    Change e db { db with replays := replays }

/-- Some changes in a row. -/
def Changes (e : Evidence) : Database → Database → Prop := Relation.ReflTransGen (Change e)

theorem Changes.refl (e : Evidence) (db : Database) : Changes e db db := Relation.ReflTransGen.refl

theorem Change.one {e : Evidence} (h : Change e db db') : Changes e db db' := .single h

theorem Changes.then {e : Evidence} {db'' : Database} (h : Changes e db db') (h' : Change e db' db'') :
    Changes e db db'' := .tail h h'

/-- What each change keeps, some changes in a row keep. -/
theorem Changes.keeps {e : Evidence} {P : Database → Prop} (h : Changes e db db')
    (hkeeps : ∀ {db db' : Database}, Change e db db' → P db → P db') (hp : P db) : P db' := by
  induction h with
  | refl => exact hp
  | tail _ hchange ih => exact hkeeps hchange ih

/-! ### What the tables hold -/

/-- A request that holds its key: it is open, or has a credential. -/
def Holds (row : AuthorizationRow) : Prop := row.state.live = true ∨ row.state = .active

/-- What the tables say of a device. -/
structure DeviceSound (db : Database) (id : String) (device : StoredDevice) : Prop where
  active : device.lifecycle = .active → db.revocations.has id = false ∧
    ∃ credential_id credential, db.credentials.get? credential_id = some credential ∧ credential.device_id = id ∧
      credential.generation = device.current_generation ∧ credential.state = .active
  revoked : device.lifecycle = .revoked → db.revocations.has id = true ∧
    ∀ credential_id credential, db.credentials.get? credential_id = some credential → credential.device_id = id →
      credential.state = .revoked

structure Sound (db : Database) : Prop where
  keyed : ∀ id row, db.requests.get? id = some row → row.id = id
  references : ∀ id row, db.requests.get? id = some row → db.References row.toAuthorizationRow
  codes : ∀ id id' row row', db.requests.get? id = some row → db.requests.get? id' = some row' →
    row.device_code_hash = row'.device_code_hash → id = id'
  keys : ∀ id id' row row', db.requests.get? id = some row → db.requests.get? id' = some row' →
    Holds row.toAuthorizationRow → Holds row'.toAuthorizationRow → row.key.fingerprint = row'.key.fingerprint → id = id'
  redeemed_once : ∀ id id' row row' device_id, db.requests.get? id = some row → db.requests.get? id' = some row' →
    row.redeemed_device_id = some device_id → row'.redeemed_device_id = some device_id → id = id'
  in_time : ∀ id row, db.requests.get? id = some row → InTime row.toAuthorizationRow
  credentials : ∀ id credential, db.credentials.get? id = some credential → ∃ row, db.requests.get? row.id = some row ∧
    row.state = .active ∧ row.redeemed_device_id = some credential.device_id ∧ row.redeemed_credential_id = some id ∧
    row.redeemed_generation = some credential.generation ∧ row.key = credential.key
  devices : ∀ id device, db.devices.get? id = some device → DeviceSound db id device
  revocations : ∀ id, db.revocations.has id = true → ∃ device, db.devices.get? id = some device

theorem References.mono {row : AuthorizationRow} (h : db.References row)
    (husers : ∀ id, db.users.has id = true → db'.users.has id = true)
    (hdevices : ∀ id device, db.devices.get? id = some device →
      ∃ device', db'.devices.get? id = some device' ∧ device'.owner_user_id = device.owner_user_id)
    (hcredentials : ∀ id credential, db.credentials.get? id = some credential →
      ∃ credential', db'.credentials.get? id = some credential' ∧ credential'.device_id = credential.device_id ∧
        credential'.generation = credential.generation ∧ credential'.key = credential.key) : db'.References row := by
  obtain ⟨happroved, hdenied, howner, hcredential⟩ := h
  refine ⟨fun user hmem => husers user (happroved user hmem), fun user hmem => husers user (hdenied user hmem),
    fun device_id hdevice owner hmem => ?_, fun device_id hdevice credential_id hid generation hgeneration => ?_⟩
  · obtain ⟨device, hget, hsame⟩ := howner device_id hdevice owner hmem
    obtain ⟨device', hget', hsame'⟩ := hdevices device_id device hget
    exact ⟨device', hget', hsame'.trans hsame⟩
  · obtain ⟨credential, hget, hdevice_id, hsame, hkey⟩ := hcredential device_id hdevice credential_id hid generation
      hgeneration
    obtain ⟨credential', hget', hdevice_id', hsame', hkey'⟩ := hcredentials credential_id credential hget
    exact ⟨credential', hget', hdevice_id'.trans hdevice_id, hsame'.trans hsame, by rw [hkey']; exact hkey⟩

/-- A poll does not change what a request refers to. -/
theorem references_polled {row : StoredRequest} (h : db.References row.toAuthorizationRow) (now : ℤ) :
    db.References (row.polled now) := by
  unfold StoredRequest.polled
  split_ifs <;> exact h

/-- A request that was redeemed has its device and its credential. -/
theorem Sound.redeemed (h : Sound db) {id : String} {row : StoredRequest} (hget : db.requests.get? id = some row)
    (hactive : row.state = .active) : ∃ device_id credential_id generation owner device credential,
      row.redeemed_device_id = some device_id ∧ row.redeemed_credential_id = some credential_id ∧
      row.redeemed_generation = some generation ∧ row.approved_by_user_id = some owner ∧
      db.devices.get? device_id = some device ∧ device.owner_user_id = some owner ∧
      db.credentials.get? credential_id = some credential ∧ credential.device_id = device_id ∧
      credential.generation = generation ∧ credential.key.fingerprint = row.key.fingerprint := by
  have hshape := row.checked.state_shape
  unfold StateShape at hshape
  rw [hactive] at hshape
  obtain ⟨howner, -, -, -, hdevice, hcredential, hgeneration, -⟩ := hshape
  obtain ⟨owner, howner⟩ := Option.isSome_iff_exists.mp howner
  obtain ⟨device_id, hdevice⟩ := Option.isSome_iff_exists.mp hdevice
  obtain ⟨credential_id, hcredential⟩ := Option.isSome_iff_exists.mp hcredential
  obtain ⟨generation, hgeneration⟩ := Option.isSome_iff_exists.mp hgeneration
  obtain ⟨-, -, howned, hissued⟩ := h.references id row hget
  obtain ⟨device, hfound, hsame⟩ := howned device_id hdevice owner howner
  obtain ⟨credential, hissued, hof, hsame', hkey⟩ := hissued device_id hdevice credential_id hcredential generation
    hgeneration
  exact ⟨device_id, credential_id, generation, owner, device, credential, hdevice, hcredential, hgeneration, howner,
    hfound, hsame, hissued, hof, hsame', hkey⟩

/-- The columns of a redemption are set for an active request alone. -/
theorem active_of_redeemed (row : StoredRequest) {device_id : String} (h : row.redeemed_device_id = some device_id) :
    row.state = .active := by
  have hshape := row.checked.state_shape
  unfold StateShape Unredeemed at hshape
  cases hstate : row.state with
  | active => rfl
  | _ =>
    rw [hstate] at hshape
    simp [h] at hshape

theorem sound_empty (users : OrdMap String Bool) : Sound ⟨users, .empty, .empty, .empty, .empty, .empty⟩ where
  keyed _ _ h := by cases h
  references _ _ h := by cases h
  codes _ _ _ _ h := by cases h
  keys _ _ _ _ h := by cases h
  redeemed_once _ _ _ _ _ h := by cases h
  in_time _ _ h := by cases h
  credentials _ _ h := by cases h
  devices _ _ h := by cases h
  revocations _ h := by cases h

/-! ### What a change keeps -/

section

variable {e : Evidence}

/-- The rows after one is set. -/
theorem get?_set_cases {β : Type} {m : OrdMap String β} {k id : String} {v w : β}
    (h : (m.set k v).get? id = some w) : (id = k ∧ w = v) ∨ (id ≠ k ∧ m.get? id = some w) := by
  rw [OrdMap.get?_set] at h
  split_ifs at h with hid
  · cases h
    exact .inl ⟨hid.symm, rfl⟩
  · exact .inr ⟨fun heq => hid heq.symm, h⟩

theorem sound_users (h : Sound db) (users : OrdMap String Bool)
    (keeps : ∀ id, db.users.has id = true → users.has id = true) : Sound { db with users := users } where
  keyed := h.keyed
  references id row hget := References.mono (h.references id row hget) keeps (fun _ device hd => ⟨device, hd, rfl⟩)
    fun _ credential hc => ⟨credential, hc, rfl, rfl, rfl⟩
  codes := h.codes
  keys := h.keys
  redeemed_once := h.redeemed_once
  in_time := h.in_time
  credentials := h.credentials
  devices id device hget := ⟨(h.devices id device hget).active, (h.devices id device hget).revoked⟩
  revocations := h.revocations

theorem sound_consumed (h : Sound db) (replays : OrdMap String ReplayRow) : Sound { db with replays := replays } where
  keyed := h.keyed
  references id row hget := References.mono (h.references id row hget) (fun _ hu => hu)
    (fun _ device hd => ⟨device, hd, rfl⟩) fun _ credential hc => ⟨credential, hc, rfl, rfl, rfl⟩
  codes := h.codes
  keys := h.keys
  redeemed_once := h.redeemed_once
  in_time := h.in_time
  credentials := h.credentials
  devices id device hget := ⟨(h.devices id device hget).active, (h.devices id device hget).revoked⟩
  revocations := h.revocations

/-- The codes of requests, where one is set with the code that it had. -/
theorem codes_set (h : Sound db) {old new : StoredRequest} (found : db.requests.get? old.id = some old)
    (hcode : new.device_code_hash = old.device_code_hash) {id id' : String} {row row' : StoredRequest}
    (hget : (db.requests.set old.id new).get? id = some row) (hget' : (db.requests.set old.id new).get? id' = some row')
    (hsame : row.device_code_hash = row'.device_code_hash) : id = id' := by
  rcases get?_set_cases hget with ⟨rfl, rfl⟩ | ⟨-, hbefore⟩ <;>
  rcases get?_set_cases hget' with ⟨rfl, rfl⟩ | ⟨-, hbefore'⟩
  · rfl
  · exact h.codes _ _ old row' found hbefore' (hcode.symm.trans hsame)
  · exact h.codes _ _ row old hbefore found (hsame.trans hcode)
  · exact h.codes _ _ row row' hbefore hbefore' hsame

/-- The keys that requests hold, where one is set with the key that it held. -/
theorem keys_set (h : Sound db) {old new : StoredRequest} (found : db.requests.get? old.id = some old)
    (hold : Holds old.toAuthorizationRow) (hkey : new.key = old.key) {id id' : String} {row row' : StoredRequest}
    (hget : (db.requests.set old.id new).get? id = some row) (hget' : (db.requests.set old.id new).get? id' = some row')
    (hholds : Holds row.toAuthorizationRow) (hholds' : Holds row'.toAuthorizationRow)
    (hsame : row.key.fingerprint = row'.key.fingerprint) : id = id' := by
  rcases get?_set_cases hget with ⟨rfl, rfl⟩ | ⟨-, hbefore⟩ <;>
  rcases get?_set_cases hget' with ⟨rfl, rfl⟩ | ⟨-, hbefore'⟩
  · rfl
  · rw [hkey] at hsame
    exact h.keys _ _ old row' found hbefore' hold hholds' hsame
  · rw [hkey] at hsame
    exact h.keys _ _ row old hbefore found hholds hold hsame
  · exact h.keys _ _ row row' hbefore hbefore' hholds hholds' hsame

/-- A request that is set, where it stands for one that was open and nothing was redeemed. -/
theorem sound_moved (h : Sound db) (old new : StoredRequest) (found : db.requests.get? old.id = some old)
    (moved : Moved old.toAuthorizationRow new.toAuthorizationRow) (references : db.References new.toAuthorizationRow) :
    Sound { db with requests := db.requests.set old.id new } := by
  have hunredeemed : ∀ device_id, new.redeemed_device_id ≠ some device_id := by
    intro device_id hsome
    cases moved.unredeemed.2.1.symm.trans hsome
  have hold : Holds old.toAuthorizationRow := .inl moved.guarded.open_
  have hinactive : old.state ≠ .active := by
    intro hactive
    have hopen := moved.guarded.open_
    rw [hactive] at hopen
    cases hopen
  constructor
  · intro id row hget
    rcases get?_set_cases hget with ⟨rfl, rfl⟩ | ⟨-, hget⟩
    · exact moved.id
    · exact h.keyed id row hget
  · intro id row hget
    rcases get?_set_cases hget with ⟨-, rfl⟩ | ⟨-, hget⟩
    · exact references
    · exact h.references id row hget
  · exact fun id id' row row' => codes_set h found moved.guarded.device_code_hash
  · exact fun id id' row row' => keys_set h found hold moved.guarded.key
  · intro id id' row row' device_id hget hget' hdevice hdevice'
    rcases get?_set_cases hget with ⟨-, rfl⟩ | ⟨-, hget⟩
    · exact absurd hdevice (hunredeemed device_id)
    · rcases get?_set_cases hget' with ⟨-, rfl⟩ | ⟨-, hget'⟩
      · exact absurd hdevice' (hunredeemed device_id)
      · exact h.redeemed_once _ _ row row' device_id hget hget' hdevice hdevice'
  · intro id row hget
    rcases get?_set_cases hget with ⟨-, rfl⟩ | ⟨-, hget⟩
    · exact moved.in_time (h.in_time _ old found)
    · exact h.in_time id row hget
  · intro id credential hget
    obtain ⟨row, hrow, hactive, hrest⟩ := h.credentials id credential hget
    have hne : row.id ≠ old.id := by
      intro heq
      rw [heq, found] at hrow
      cases hrow
      exact hinactive hactive
    exact ⟨row, (OrdMap.get?_set_ne _ _ (Ne.symm hne)).trans hrow, hactive, hrest⟩
  · exact fun id device hget => ⟨(h.devices id device hget).active, (h.devices id device hget).revoked⟩
  · exact h.revocations

theorem sound_created (h : Sound db) (row : StoredRequest) (pending : row.state = .pending)
    (unique : db.RequestUnique row.toAuthorizationRow)
    (unused : ∀ credential ∈ db.credentials.values, credential.key.fingerprint ≠ row.key.fingerprint) :
    Sound { db with requests := db.requests.set row.id row } := by
  obtain ⟨habsent, hothers⟩ := unique
  have hfresh : db.requests.get? row.id = none := by
    unfold OrdMap.has at habsent
    rwa [Option.isSome_eq_false_iff, Option.isNone_iff_eq_none] at habsent
  have hshape := row.checked.state_shape
  unfold StateShape at hshape
  rw [pending] at hshape
  obtain ⟨hunapproved, hundenied, -, -, hunredeemed⟩ := hshape
  have hother : ∀ {id : String} {other : StoredRequest}, db.requests.get? id = some other →
      other ∈ db.requests.values := fun hget => OrdMap.mem_values.mpr ⟨_, hget⟩
  -- no other request holds the key: an open one conflicts, and an active one has a credential
  have hfree : ∀ {id : String} {other : StoredRequest}, db.requests.get? id = some other →
      Holds other.toAuthorizationRow → other.key.fingerprint ≠ row.key.fingerprint := by
    intro id other hget hholds hkey
    rcases hholds with hlive | hactive
    · exact (hothers other (hother hget)).2.2 ⟨hlive, hkey⟩
    · obtain ⟨-, credential_id, -, -, -, credential, -, -, -, -, -, -, hcredential, -, -, hsame⟩ :=
        h.redeemed hget hactive
      exact unused credential (OrdMap.mem_values.mpr ⟨credential_id, hcredential⟩) (hsame.trans hkey)
  constructor
  · intro id other hget
    rcases get?_set_cases hget with ⟨rfl, rfl⟩ | ⟨-, hget⟩
    · rfl
    · exact h.keyed id other hget
  · intro id other hget
    rcases get?_set_cases hget with ⟨-, rfl⟩ | ⟨-, hget⟩
    · refine ⟨fun user hmem => ?_, fun user hmem => ?_, fun device_id hmem => ?_, fun device_id hmem => ?_⟩
      · cases hunapproved.symm.trans hmem
      · cases hundenied.symm.trans hmem
      · cases hunredeemed.2.1.symm.trans hmem
      · cases hunredeemed.2.1.symm.trans hmem
    · exact h.references id other hget
  · intro id id' other other' hget hget' hcode
    rcases get?_set_cases hget with ⟨rfl, rfl⟩ | ⟨-, hbefore⟩ <;>
    rcases get?_set_cases hget' with ⟨rfl, rfl⟩ | ⟨-, hbefore'⟩
    · rfl
    · exact absurd hcode.symm (hothers other' (hother hbefore')).1
    · exact absurd hcode (hothers other (hother hbefore)).1
    · exact h.codes _ _ other other' hbefore hbefore' hcode
  · intro id id' other other' hget hget' hholds hholds' hkey
    rcases get?_set_cases hget with ⟨rfl, rfl⟩ | ⟨-, hbefore⟩ <;>
    rcases get?_set_cases hget' with ⟨rfl, rfl⟩ | ⟨-, hbefore'⟩
    · rfl
    · exact absurd hkey.symm (hfree hbefore' hholds')
    · exact absurd hkey (hfree hbefore hholds)
    · exact h.keys _ _ other other' hbefore hbefore' hholds hholds' hkey
  · intro id id' other other' device_id hget hget' hdevice hdevice'
    rcases get?_set_cases hget with ⟨-, rfl⟩ | ⟨-, hget⟩
    · cases hunredeemed.2.1.symm.trans hdevice
    · rcases get?_set_cases hget' with ⟨-, rfl⟩ | ⟨-, hget'⟩
      · cases hunredeemed.2.1.symm.trans hdevice'
      · exact h.redeemed_once _ _ other other' device_id hget hget' hdevice hdevice'
  · intro id other hget
    rcases get?_set_cases hget with ⟨-, rfl⟩ | ⟨-, hget⟩
    · constructor
      · rintro (hstate | hstate) <;> cases pending.symm.trans hstate
      · intro hstate
        cases pending.symm.trans hstate
    · exact h.in_time id other hget
  · intro id credential hget
    obtain ⟨other, hrow, hrest⟩ := h.credentials id credential hget
    have hne : other.id ≠ row.id := by
      intro heq
      rw [heq, hfresh] at hrow
      cases hrow
    exact ⟨other, (OrdMap.get?_set_ne _ _ (Ne.symm hne)).trans hrow, hrest⟩
  · exact fun id device hget => ⟨(h.devices id device hget).active, (h.devices id device hget).revoked⟩
  · exact h.revocations

theorem sound_redeemed (h : Sound db) (old new : StoredRequest) (input : RedeemInput) (owner : String)
    (device : StoredDevice) (credential : StoredCredential) (found : db.requests.get? old.id = some old)
    (state : old.state = .approved_pending_redemption) (approved : old.approved_by_user_id = some owner)
    (due : input.now < old.expires_at) (fresh : db.devices.get? input.device_id = none)
    (fresh_credential : db.credentials.get? input.credential_id = none)
    (request_row : new.toAuthorizationRow = old.redeemed input)
    (device_row : device.toDeviceRow = { old.device owner input.now with current_generation := 1 })
    (credential_row : credential.toCredentialRow = old.credential input.device_id input.now)
    (user : db.users.has owner = true) :
    Sound { db with
      requests := db.requests.set old.id new
      devices := db.devices.set input.device_id device
      credentials := db.credentials.set input.credential_id credential } := by
  have hlive : old.state.live = true := by rw [state]; rfl
  obtain ⟨hundenied, -, -, -, -⟩ := live_shape old hlive
  -- what was there before stays: the ids of the device and of its credential are new
  have hdevices : ∀ {id : String} {other : StoredDevice}, db.devices.get? id = some other →
      (db.devices.set input.device_id device).get? id = some other := by
    intro id other hget
    rw [OrdMap.get?_set_ne _ _ (fun heq => by rw [heq, hget] at fresh; cases fresh)]
    exact hget
  have hcredentials : ∀ {id : String} {other : StoredCredential}, db.credentials.get? id = some other →
      (db.credentials.set input.credential_id credential).get? id = some other := by
    intro id other hget
    rw [OrdMap.get?_set_ne _ _ (fun heq => by rw [heq, hget] at fresh_credential; cases fresh_credential)]
    exact hget
  constructor
  · intro id row hget
    rcases get?_set_cases hget with ⟨rfl, rfl⟩ | ⟨-, hget⟩
    · rw [request_row]
      rfl
    · exact h.keyed id row hget
  · intro id row hget
    rcases get?_set_cases hget with ⟨-, rfl⟩ | ⟨-, hget⟩
    · rw [request_row]
      refine ⟨fun other hmem => ?_, fun other hmem => ?_, fun device_id hmem other hmem' => ?_,
        fun device_id hmem credential_id hmem' generation hmem'' => ?_⟩
      · cases approved.symm.trans hmem
        exact user
      · cases hundenied.symm.trans hmem
      · cases hmem
        cases approved.symm.trans hmem'
        exact ⟨device, OrdMap.get?_set_self _ _ _, by rw [device_row]; rfl⟩
      · cases hmem
        cases hmem'
        cases hmem''
        exact ⟨credential, OrdMap.get?_set_self _ _ _, by rw [credential_row]; exact ⟨rfl, rfl, rfl⟩⟩
    · exact References.mono (h.references id row hget) (fun _ hu => hu) (fun _ other hd => ⟨other, hdevices hd, rfl⟩)
        fun _ other hc => ⟨other, hcredentials hc, rfl, rfl, rfl⟩
  · exact fun id id' row row' => codes_set h found (by rw [request_row]; rfl)
  · exact fun id id' row row' => keys_set h found (.inl hlive) (by rw [request_row]; rfl)
  · -- no other request was redeemed for a device with a new id
    have hother : ∀ {id : String} {row : StoredRequest}, db.requests.get? id = some row →
        row.redeemed_device_id ≠ some input.device_id := by
      intro id row hget hdevice
      obtain ⟨device_id, _, _, _, _, _, hdevice', -, -, -, hfound, -⟩ :=
        h.redeemed hget (active_of_redeemed row hdevice)
      cases hdevice.symm.trans hdevice'
      cases fresh.symm.trans hfound
    have hnew : new.redeemed_device_id = some input.device_id := by rw [request_row]; rfl
    intro id id' row row' device_id hget hget' hdevice hdevice'
    rcases get?_set_cases hget with ⟨rfl, rfl⟩ | ⟨-, hbefore⟩ <;>
    rcases get?_set_cases hget' with ⟨rfl, rfl⟩ | ⟨-, hbefore'⟩
    · rfl
    · exact absurd (hdevice'.trans (hdevice.symm.trans hnew)) (hother hbefore')
    · exact absurd (hdevice.trans (hdevice'.symm.trans hnew)) (hother hbefore)
    · exact h.redeemed_once _ _ row row' device_id hbefore hbefore' hdevice hdevice'
  · intro id row hget
    rcases get?_set_cases hget with ⟨-, rfl⟩ | ⟨-, hget⟩
    · rw [request_row]
      refine ⟨fun _ => (h.in_time _ old found).approved (.inl state), fun _ t hmem => ?_⟩
      cases hmem
      exact due
    · exact h.in_time id row hget
  · intro id other hget
    rcases get?_set_cases hget with ⟨rfl, rfl⟩ | ⟨-, hget⟩
    · refine ⟨new, ?_, ?_⟩
      · rw [show new.id = old.id by rw [request_row]; rfl]
        exact OrdMap.get?_set_self _ _ _
      · rw [request_row, credential_row]
        exact ⟨rfl, rfl, rfl, rfl, rfl⟩
    · obtain ⟨row, hrow, hactive, hrest⟩ := h.credentials id other hget
      have hne : row.id ≠ old.id := by
        intro heq
        rw [heq, found] at hrow
        cases hrow
        cases state.symm.trans hactive
      exact ⟨row, (OrdMap.get?_set_ne _ _ (Ne.symm hne)).trans hrow, hactive, hrest⟩
  · intro id other hget
    rcases get?_set_cases hget with ⟨rfl, rfl⟩ | ⟨hne, hget⟩
    · refine ⟨fun _ => ⟨?_, input.credential_id, credential, OrdMap.get?_set_self _ _ _, ?_⟩, fun hrevoked => ?_⟩
      · rw [Bool.eq_false_iff]
        intro hrevoked
        obtain ⟨found, hfound⟩ := h.revocations _ hrevoked
        cases fresh.symm.trans hfound
      · rw [credential_row, device_row]
        exact ⟨rfl, rfl, rfl⟩
      · rw [device_row] at hrevoked
        cases hrevoked
    · have hsound := h.devices id other hget
      refine ⟨fun hactive => ?_, fun hrevoked => ⟨(hsound.revoked hrevoked).1, ?_⟩⟩
      · obtain ⟨hunrevoked, credential_id, current, hfound, hrest⟩ := hsound.active hactive
        exact ⟨hunrevoked, credential_id, current, hcredentials hfound, hrest⟩
      · intro credential_id current hfound hof
        rcases get?_set_cases hfound with ⟨-, rfl⟩ | ⟨-, hfound⟩
        · rw [credential_row] at hof
          exact absurd hof.symm hne
        · exact (hsound.revoked hrevoked).2 credential_id current hfound hof
  · intro id hrevoked
    obtain ⟨other, hfound⟩ := h.revocations id hrevoked
    exact ⟨other, hdevices hfound⟩

/-- A credential after those of a device are revoked. -/
theorem get?_revokeCredentials {device_id id : String} {revoked_at : ℤ} {credential : StoredCredential}
    (hget : (db.revokeCredentials device_id revoked_at).credentials.get? id = some credential) :
    ∃ before, db.credentials.get? id = some before ∧ credential.device_id = before.device_id ∧
      credential.generation = before.generation ∧ credential.key = before.key ∧
      (before.device_id ≠ device_id → credential = before) ∧
      (before.device_id = device_id → credential.state = .revoked) := by
  unfold Database.revokeCredentials at hget
  rw [OrdMap.get?_mapValues] at hget
  obtain ⟨before, hbefore, rfl⟩ := Option.map_eq_some_iff.mp hget
  refine ⟨before, hbefore, ?_⟩
  split_ifs with h
  · exact ⟨rfl, rfl, rfl, fun hne => absurd h.1 hne, fun _ => rfl⟩
  · refine ⟨rfl, rfl, rfl, fun _ => rfl, fun hof => ?_⟩
    cases hstate : before.state with
    | active => exact absurd ⟨hof, hstate⟩ h
    | revoked => rfl

/-- A credential of before, after those of a device are revoked. -/
theorem credential_kept {device_id id : String} {revoked_at : ℤ} {before : StoredCredential}
    (hget : db.credentials.get? id = some before) :
    ∃ credential, (db.revokeCredentials device_id revoked_at).credentials.get? id = some credential ∧
      credential.device_id = before.device_id ∧ credential.generation = before.generation ∧
      credential.key = before.key ∧ (before.device_id ≠ device_id → credential = before) := by
  have hmap : (db.revokeCredentials device_id revoked_at).credentials.get? id =
      some (if before.device_id = device_id ∧ before.state = .active then before.revoke revoked_at else before) := by
    unfold Database.revokeCredentials
    rw [OrdMap.get?_mapValues, hget]
    rfl
  obtain ⟨found, hfound, hdevice, hgeneration, hkey, hother, -⟩ := get?_revokeCredentials hmap
  cases hget.symm.trans hfound
  exact ⟨_, hmap, hdevice, hgeneration, hkey, hother⟩

theorem sound_revoked (h : Sound db) (device_id : String) (old new : StoredDevice) (record : RevocationRow)
    (revoked_at : ℤ) (found : db.devices.get? device_id = some old) (row : new.toDeviceRow = old.revoked revoked_at) :
    Sound { db.revokeCredentials device_id revoked_at with
      revocations := db.revocations.set device_id record
      devices := db.devices.set device_id new } := by
  constructor
  · exact h.keyed
  · intro id request hget
    refine References.mono (h.references id request hget) (fun _ hu => hu) (fun other device hd => ?_)
      fun other credential hc => ?_
    · by_cases heq : other = device_id
      · subst heq
        cases found.symm.trans hd
        exact ⟨new, OrdMap.get?_set_self _ _ _, by rw [row]; rfl⟩
      · exact ⟨device, (OrdMap.get?_set_ne _ _ (Ne.symm heq)).trans hd, rfl⟩
    · obtain ⟨credential', hc', hdevice, hgeneration, hkey, -⟩ := credential_kept hc
      exact ⟨credential', hc', hdevice, hgeneration, hkey⟩
  · exact h.codes
  · exact h.keys
  · exact h.redeemed_once
  · exact h.in_time
  · intro id credential hget
    obtain ⟨before, hbefore, hdevice, hgeneration, hkey, -⟩ := get?_revokeCredentials hget
    obtain ⟨request, hrequest, hactive, hof, hid, hissued, hsame⟩ := h.credentials id before hbefore
    exact ⟨request, hrequest, hactive, by rw [hdevice]; exact hof, hid, by rw [hgeneration]; exact hissued,
      by rw [hkey]; exact hsame⟩
  · intro id device hget
    rcases get?_set_cases hget with ⟨rfl, rfl⟩ | ⟨hne, hget⟩
    · refine ⟨fun hactive => ?_, fun _ => ⟨?_, fun credential_id credential hcredential hof => ?_⟩⟩
      · rw [row] at hactive
        cases hactive
      · unfold OrdMap.has
        rw [OrdMap.get?_set_self]
        rfl
      · obtain ⟨before, -, hdevice, -, -, -, hrevoked⟩ := get?_revokeCredentials hcredential
        exact hrevoked (hdevice.symm.trans hof)
    · have hsound := h.devices id device hget
      have hhas : (db.revocations.set device_id record).has id = db.revocations.has id := by
        unfold OrdMap.has
        rw [OrdMap.get?_set_ne _ _ (Ne.symm hne)]
      refine ⟨fun hactive => ?_, fun hrevoked => ⟨hhas.trans (hsound.revoked hrevoked).1, ?_⟩⟩
      · obtain ⟨hunrevoked, credential_id, credential, hcredential, hof, hrest⟩ := hsound.active hactive
        obtain ⟨credential', hcredential', -, -, -, hsame⟩ := credential_kept hcredential
        cases hsame (by rw [hof]; exact hne)
        exact ⟨hhas.trans hunrevoked, credential_id, credential, hcredential', hof, hrest⟩
      · intro credential_id credential hcredential hof
        obtain ⟨before, hbefore, hdevice, -, -, hsame, -⟩ := get?_revokeCredentials hcredential
        have hof' : before.device_id = id := hdevice.symm.trans hof
        cases hsame (by rw [hof']; exact hne)
        exact (hsound.revoked hrevoked).2 credential_id credential hbefore hof'
  · intro id hrevoked
    by_cases heq : id = device_id
    · exact ⟨new, by rw [heq]; exact OrdMap.get?_set_self _ _ _⟩
    · have hbefore : db.revocations.has id = true := by
        unfold OrdMap.has at hrevoked ⊢
        rwa [OrdMap.get?_set_ne _ _ (Ne.symm heq)] at hrevoked
      obtain ⟨device, hfound⟩ := h.revocations id hbefore
      exact ⟨device, (OrdMap.get?_set_ne _ _ (Ne.symm heq)).trans hfound⟩

/-- Each change keeps what the tables hold. -/
theorem Sound.change (h : Sound db) (hchange : Change e db db') : Sound db' := by
  cases hchange with
  | users users keeps => exact sound_users h users keeps
  | moved old new found moved references => exact sound_moved h old new found moved references
  | polled old new now found live row =>
    exact sound_moved h old new found (by rw [row]; exact moved_polled old live now)
      (by rw [row]; exact references_polled (h.references _ old found) now)
  | created row pending unique unused => exact sound_created h row pending unique unused
  | redeemed old new input owner device credential found proven state approved due fresh fresh_credential request_row
      device_row credential_row user =>
    exact sound_redeemed h old new input owner device credential found state approved due fresh fresh_credential
      request_row device_row credential_row user
  | revoked device_id old new record revoked_at found state row =>
    exact sound_revoked h device_id old new record revoked_at found row
  | consumed replays keeps => exact sound_consumed h replays

theorem Sound.changes (h : Sound db) (hchanges : Changes e db db') : Sound db' :=
  hchanges.keeps (fun hchange h => h.change hchange) h

end

/-! ### What each service writes -/

section

variable {e : Evidence}

theorem ok_bind {α β : Type} (a : α) (f : α → Except IdentityError β) : (Except.ok a >>= f) = f a := rfl

theorem refuse_ok {p : Prop} [Decidable p] {error : IdentityError} (h : ¬ p) : refuse p error = .ok () := if_neg h

theorem refuse_error {p : Prop} [Decidable p] {error : IdentityError} (h : p) : refuse p error = .error error := if_pos h

theorem has_of_get? {β : Type} {m : OrdMap String β} {k : String} {v : β} (h : m.get? k = some v) : m.has k = true := by
  unfold OrdMap.has
  rw [h]
  rfl

theorem get?_of_has {β : Type} {m : OrdMap String β} {k : String} (h : m.has k = false) : m.get? k = none := by
  unfold OrdMap.has at h
  rwa [Option.isSome_eq_false_iff, Option.isNone_iff_eq_none] at h

theorem Sound.at (h : Sound db) {id : String} {row : StoredRequest} (hget : db.requests.get? id = some row) :
    db.requests.get? row.id = some row := by
  rw [h.keyed id row hget]
  exact hget

theorem Sound.found (h : Sound db) {p : StoredRequest → Bool} {row : StoredRequest}
    (hfind : db.requests.values.find? p = some row) : db.requests.get? row.id = some row ∧ p row = true := by
  obtain ⟨id, hget⟩ := OrdMap.mem_values.mp (List.mem_of_find?_eq_some hfind)
  exact ⟨h.at hget, List.find?_some hfind⟩

/-- The update of a request that meets what the table asks for. -/
theorem updateRequest_ok (old : StoredRequest) {new : AuthorizationRow}
    (hguarded : RequestGuarded old.toAuthorizationRow new) (hchecked : Checked new) (hreferences : db.References new) :
    db.updateRequest old new =
      .ok (⟨new, hchecked⟩, { db with requests := db.requests.set old.id ⟨new, hchecked⟩ }) := by
  have hfirst : refuse (¬ RequestGuarded old.toAuthorizationRow new) IdentityError.raised = .ok () :=
    refuse_ok (not_not.mpr hguarded)
  have hlast : refuse (¬ db.References new) IdentityError.constraint = .ok () :=
    refuse_ok (not_not.mpr hreferences)
  unfold Database.updateRequest store
  rw [hfirst, hlast, dif_pos hchecked]
  rfl

/-- A request that is not redeemed refers to users alone. -/
theorem references_users {row : AuthorizationRow} (hunredeemed : Unredeemed row)
    (happroved : ∀ user ∈ row.approved_by_user_id, db.users.has user = true)
    (hdenied : ∀ user ∈ row.denied_by_user_id, db.users.has user = true) : db.References row := by
  refine ⟨happroved, hdenied, fun device_id hmem => ?_, fun device_id hmem => ?_⟩ <;>
  cases hunredeemed.2.1.symm.trans hmem

/-- A request that is due is expired; any other is left as it is. -/
theorem expireIfDue_cases (h : Sound db) {row : StoredRequest} (hget : db.requests.get? row.id = some row) (now : ℤ) :
    (db.expireIfDue row now = .ok (row, db) ∧ (row.state.live = true → now < row.expires_at)) ∨
      ∃ expired : StoredRequest, expired.toAuthorizationRow = row.expired now ∧
        db.expireIfDue row now = .ok (expired, { db with requests := db.requests.set row.id expired }) ∧
        Change e db { db with requests := db.requests.set row.id expired } := by
  unfold Database.expireIfDue
  by_cases hkept : row.state.live = false ∨ now < row.expires_at
  · rw [if_pos hkept]
    exact .inl ⟨rfl, fun hlive => hkept.resolve_left (by rw [hlive]; decide)⟩
  · rw [if_neg hkept]
    have hlive : row.state.live = true := Bool.not_eq_false _ ▸ (not_or.mp hkept).1
    have hmoved := moved_expired row hlive now
    have hreferences : db.References (row.expired now) := h.references _ row hget
    exact .inr ⟨⟨row.expired now, checked_expired row hlive now⟩, rfl,
      updateRequest_ok row hmoved.guarded _ hreferences,
      .moved row _ hget hmoved hreferences ⟨rfl, rfl, rfl⟩ fun user _ => .inl rfl⟩

/-- What is read of a request after it was expired where due. -/
theorem expireIfDue_spec (h : Sound db) {row : StoredRequest} (hget : db.requests.get? row.id = some row) (now : ℤ) :
    ∃ current db', db.expireIfDue row now = .ok (current, db') ∧ Changes e db db' := by
  rcases expireIfDue_cases (e := e) h hget now with ⟨hsame, -⟩ | ⟨expired, -, hexpired, hchange⟩
  · exact ⟨_, _, hsame, .refl e db⟩
  · exact ⟨_, _, hexpired, hchange.one⟩

theorem lookupByHumanCode_spec (h : Sound db) (human_code_hash : HashedEnrollmentCode) (now : ℤ) :
    ∃ answer db', lookupByHumanCode db human_code_hash now = .ok (answer, db') ∧ Changes e db db' := by
  unfold lookupByHumanCode
  split
  · exact ⟨_, _, rfl, .refl e db⟩
  · next selected hfind =>
    obtain ⟨current, db', hok, hchanges⟩ := expireIfDue_spec (e := e) h (h.found hfind).1 now
    rw [hok]
    exact ⟨_, _, rfl, hchanges⟩

theorem getDecisionCandidate_spec (h : Sound db) (authorization_request_id : String) (now : ℤ) :
    ∃ answer db', getDecisionCandidate db authorization_request_id now = .ok (answer, db') ∧ Changes e db db' := by
  unfold getDecisionCandidate
  split
  · exact ⟨_, _, rfl, .refl e db⟩
  · next selected hget =>
    obtain ⟨current, db', hok, hchanges⟩ := expireIfDue_spec (e := e) h (h.at hget) now
    rw [hok]
    exact ⟨_, _, rfl, hchanges⟩

theorem getOwnedAuthorization_spec (h : Sound db) (authorization_request_id owner_user_id : String) (now : ℤ) :
    ∃ answer db', getOwnedAuthorization db authorization_request_id owner_user_id now = .ok (answer, db') ∧
      Changes e db db' := by
  unfold getOwnedAuthorization
  split
  · exact ⟨_, _, rfl, .refl e db⟩
  · next selected hget =>
    split_ifs
    · exact ⟨_, _, rfl, .refl e db⟩
    · obtain ⟨current, db', hok, hchanges⟩ := expireIfDue_spec (e := e) h (h.at hget) now
      rw [hok]
      exact ⟨_, _, rfl, hchanges⟩

theorem Sound.decided (h : Sound db) {id : String} {human_code_hash : HashedEnrollmentCode} {row : StoredRequest}
    (hdecided : db.decided id human_code_hash = some row) :
    db.requests.get? row.id = some row ∧ row.id = id ∧ row.user_code_hash = human_code_hash := by
  unfold Database.decided at hdecided
  obtain ⟨hget, hcode⟩ := Option.filter_eq_some_iff.mp hdecided
  exact ⟨h.at hget, h.keyed id row hget, of_decide_eq_true hcode⟩

theorem approve_spec (h : Sound db) (id : String) (human_code_hash : HashedEnrollmentCode) (owner : String) (now : ℤ)
    (hallowed : db.users.get? owner = some true → ⟨id, human_code_hash, owner, true⟩ ∈ e.approvals) :
    ∃ answer db', approve db id human_code_hash owner now = .ok (answer, db') ∧ Changes e db db' := by
  unfold approve
  split
  · exact ⟨_, _, rfl, .refl e db⟩
  · next selected hdecided =>
    obtain ⟨hget, rfl, rfl⟩ := h.decided hdecided
    split_ifs with howner
    · exact ⟨_, _, rfl, .refl e db⟩
    · have howner : db.users.get? owner = some true := not_not.mp howner
      rcases expireIfDue_cases (e := e) h hget now with ⟨hsame, hdue⟩ | ⟨expired, hrow, hexpired, hchange⟩
      · rw [hsame]
        by_cases happroved : selected.state = .approved_pending_redemption
        · exact ⟨_, _, if_pos happroved, .refl e db⟩
        · by_cases hpending : selected.state = .pending
          · have hlive : selected.state.live = true := by rw [hpending]; rfl
            have hmoved := moved_approved selected hpending owner (hdue hlive)
            have hreferences : db.References (selected.approved owner now) := by
              refine references_users hmoved.unredeemed (fun user hmem => ?_) fun user hmem => ?_
              · cases hmem
                exact has_of_get? howner
              · cases (live_shape selected hlive).1.symm.trans hmem
            refine ⟨some ⟨_, checked_approved selected hlive owner now⟩, _, ?_,
              Change.one (.moved selected ⟨_, checked_approved selected hlive owner now⟩ hget hmoved
              hreferences ⟨rfl, rfl, rfl⟩ fun user hmem => .inr ?_)⟩
            · refine (if_neg happroved).trans ((if_neg (not_not.mpr hpending)).trans ?_)
              rw [updateRequest_ok selected hmoved.guarded (checked_approved selected hlive owner now) hreferences]
              rfl
            · cases hmem
              exact hallowed howner
          · exact ⟨_, _, (if_neg happroved).trans (if_pos hpending), .refl e db⟩
      · rw [hexpired]
        have hstate : expired.state = .expired := by rw [hrow]; rfl
        exact ⟨_, _, (if_neg (by rw [hstate]; decide)).trans (if_pos (by rw [hstate]; decide)), hchange.one⟩

theorem deny_spec (h : Sound db) (id : String) (human_code_hash : HashedEnrollmentCode) (user : String) (now : ℤ) :
    ∃ answer db', deny db id human_code_hash user now = .ok (answer, db') ∧ Changes e db db' := by
  unfold deny
  split
  · exact ⟨_, _, rfl, .refl e db⟩
  · next selected hdecided =>
    obtain ⟨hget, rfl, rfl⟩ := h.decided hdecided
    split_ifs with hrefused
    · exact ⟨_, _, rfl, .refl e db⟩
    · have huser : db.users.get? user = some true := not_not.mp (not_or.mp hrefused).1
      rcases expireIfDue_cases (e := e) h hget now with ⟨hsame, -⟩ | ⟨expired, hrow, hexpired, hchange⟩
      · rw [hsame]
        by_cases hdenied : selected.state = .denied
        · exact ⟨_, _, if_pos hdenied, .refl e db⟩
        · by_cases hlive : selected.state.live = true
          · have hmoved := moved_denied selected hlive user now
            have hreferences : db.References (selected.denied user now) := by
              refine references_users hmoved.unredeemed (h.references _ selected hget).1 fun other hmem => ?_
              cases hmem
              exact has_of_get? huser
            refine ⟨some ⟨_, checked_denied selected hlive user now⟩, _, ?_,
              Change.one (.moved selected ⟨_, checked_denied selected hlive user now⟩ hget hmoved
              hreferences ⟨rfl, rfl, rfl⟩ fun _ _ => .inl rfl)⟩
            refine (if_neg hdenied).trans ((if_neg (by rw [hlive]; decide)).trans ?_)
            rw [updateRequest_ok selected hmoved.guarded (checked_denied selected hlive user now) hreferences]
            rfl
          · exact ⟨_, _, (if_neg hdenied).trans (if_pos (by simpa using hlive)), .refl e db⟩
      · rw [hexpired]
        have hstate : expired.state = .expired := by rw [hrow]; rfl
        exact ⟨_, _, (if_neg (by rw [hstate]; decide)).trans (if_pos (by rw [hstate]; rfl)), hchange.one⟩

/-- The poll has set the next time for one. -/
def PollAnswer.scheduled : PollAnswer → Bool
  | .authorization_pending _ | .slow_down _ | .approved_pending_redemption _ => true
  | .not_found | .expired_token | .access_denied | .active _ => false

/-- The poll came too early. -/
def PollAnswer.early : PollAnswer → Bool
  | .slow_down _ => true
  | .not_found | .expired_token | .access_denied | .authorization_pending _ | .approved_pending_redemption _
  | .active _ => false

theorem PollAnswer.early_scheduled {answer : PollAnswer} (h : answer.early = true) : answer.scheduled = true := by
  cases answer <;> first | rfl | cases h

/-- What a poll says of the request of its code. -/
structure Polled (db db' : Database) (row : StoredRequest) (now : ℤ) (answer : PollAnswer) : Prop where
  found : db.requests.get? row.id = some row
  record : ∀ record, answer = .active record ∨ answer = .approved_pending_redemption record →
    db'.requests.get? row.id = some record ∧ record.id = row.id ∧ record.device_code_hash = row.device_code_hash ∧
      record.key = row.key
  scheduled : answer.scheduled = true → ∃ polled, db'.requests.get? row.id = some polled ∧
    polled.toAuthorizationRow = row.polled now
  answered : (∃ seconds, answer = .authorization_pending seconds) ∨ (∃ record, answer = .approved_pending_redemption record) →
    row.next_poll_at ≤ now
  early : answer.early = true → now < row.next_poll_at

theorem Polled.plain {row : StoredRequest} {answer : PollAnswer} (found : db.requests.get? row.id = some row)
    (record : ∀ record, answer = .active record ∨ answer = .approved_pending_redemption record →
      db'.requests.get? row.id = some record ∧ record.id = row.id ∧ record.device_code_hash = row.device_code_hash ∧
        record.key = row.key)
    (hplain : answer.scheduled = false) : Polled db db' row now answer := by
  refine ⟨found, record, fun hscheduled => ?_, ?_, fun hearly => ?_⟩
  · rw [hplain] at hscheduled
    cases hscheduled
  · rintro (⟨seconds, rfl⟩ | ⟨record, rfl⟩) <;> cases hplain
  · cases hplain.symm.trans (PollAnswer.early_scheduled hearly)

/-- The row that a poll writes, of a request that is not settled. -/
theorem Sound.update_polled (h : Sound db) {row : StoredRequest} (hget : db.requests.get? row.id = some row)
    (hlive : row.state.live = true) (now : ℤ) :
    db.updateRequest row (row.polled now) = .ok (⟨row.polled now, checked_polled row now⟩,
      { db with requests := db.requests.set row.id ⟨row.polled now, checked_polled row now⟩ }) :=
  updateRequest_ok row (moved_polled row hlive now).guarded (checked_polled row now)
    (references_polled (h.references _ row hget) now)

/-- A poll that came too early. -/
theorem Polled.slowed {row written : StoredRequest} {seconds : ℕ} (found : db.requests.get? row.id = some row)
    (hwritten : written.toAuthorizationRow = row.polled now) (early : now < row.next_poll_at) :
    Polled db { db with requests := db.requests.set row.id written } row now (.slow_down seconds) :=
  ⟨found, by simp, fun _ => ⟨written, OrdMap.get?_set_self _ _ _, hwritten⟩, by simp, fun _ => early⟩

theorem poll_spec (h : Sound db) (device_code_hash : HashedEnrollmentCode) (now : ℤ)
    (hasked : ∀ row, db.requests.values.find? (fun row => row.device_code_hash = device_code_hash) = some row →
      (row.id, now) ∈ e.polls) :
    ∃ answer db', poll db device_code_hash now = .ok (answer, db') ∧ Changes e db db' ∧
      (answer = .not_found ∨ ∃ row, db.requests.values.find? (fun row => row.device_code_hash = device_code_hash) =
        some row ∧ row.device_code_hash = device_code_hash ∧ Polled db db' row now answer) := by
  unfold poll
  split
  · exact ⟨_, _, rfl, .refl e db, .inl rfl⟩
  · next selected hfind =>
    obtain ⟨hget, hcode⟩ := h.found hfind
    have hcode : selected.device_code_hash = device_code_hash := of_decide_eq_true hcode
    rcases expireIfDue_cases (e := e) h hget now with ⟨hsame, hdue⟩ | ⟨expired, hrow, hexpired, hchange⟩
    · rw [hsame, ok_bind]
      dsimp only
      cases hstate : selected.state with
      | expired => exact ⟨_, _, rfl, .refl e db, .inr ⟨selected, hfind, hcode, .plain hget (by simp) rfl⟩⟩
      | denied => exact ⟨_, _, rfl, .refl e db, .inr ⟨selected, hfind, hcode, .plain hget (by simp) rfl⟩⟩
      | active =>
        refine ⟨_, _, rfl, .refl e db, .inr ⟨selected, hfind, hcode, .plain hget ?_ rfl⟩⟩
        rintro record (heq | heq)
        · cases heq
          exact ⟨hget, rfl, rfl, rfl⟩
        · cases heq
      | pending =>
        have hlive : selected.state.live = true := by rw [hstate]; rfl
        rw [h.update_polled hget hlive now, ok_bind]
        dsimp only
        have hchange : Change e db _ := .polled selected ⟨selected.polled now, checked_polled selected now⟩ now hget hlive
          rfl (hasked selected hfind)
        split_ifs with hearly
        · exact ⟨_, _, rfl, hchange.one, .inr ⟨selected, hfind, hcode, .slowed hget rfl hearly⟩⟩
        · refine ⟨_, _, rfl, hchange.one, .inr ⟨selected, hfind, hcode, hget, by simp, fun _ => ?_, fun _ => ?_,
            fun h => by cases h⟩⟩
          · exact ⟨_, OrdMap.get?_set_self _ _ _, rfl⟩
          · exact not_lt.mp hearly
      | approved_pending_redemption =>
        have hlive : selected.state.live = true := by rw [hstate]; rfl
        rw [h.update_polled hget hlive now, ok_bind]
        dsimp only
        have hchange : Change e db _ := .polled selected ⟨selected.polled now, checked_polled selected now⟩ now hget hlive
          rfl (hasked selected hfind)
        split_ifs with hearly
        · exact ⟨_, _, rfl, hchange.one, .inr ⟨selected, hfind, hcode, .slowed hget rfl hearly⟩⟩
        · refine ⟨_, _, rfl, hchange.one, .inr ⟨selected, hfind, hcode, hget, ?_, fun _ => ?_, fun _ => ?_,
            fun h => by cases h⟩⟩
          · rintro record (heq | heq)
            · cases heq
            · cases heq
              have hmoved := moved_polled selected hlive now
              exact ⟨OrdMap.get?_set_self _ _ _, hmoved.id, hmoved.guarded.device_code_hash, hmoved.guarded.key⟩
          · exact ⟨_, OrdMap.get?_set_self _ _ _, rfl⟩
          · exact not_lt.mp hearly
    · rw [hexpired, ok_bind]
      have hstate : expired.state = .expired := by rw [hrow]; rfl
      dsimp only
      rw [hstate]
      exact ⟨_, _, rfl, hchange.one, .inr ⟨selected, hfind, hcode, .plain hget (by simp) rfl⟩⟩

/-! ### Redemptions and revocations -/

theorem updateDevice_ok {id : String} {device : StoredDevice} {row : DeviceRow}
    (hguarded : DeviceGuarded device.toDeviceRow row) (hchecked : DeviceChecked row) :
    db.updateDevice id device row = .ok { db with devices := db.devices.set id ⟨row, hchecked⟩ } := by
  have hfirst : refuse (¬ DeviceGuarded device.toDeviceRow row) IdentityError.raised = .ok () :=
    refuse_ok (not_not.mpr hguarded)
  unfold Database.updateDevice
  rw [hfirst, ok_bind, dif_pos hchecked]
  rfl

/-- A redemption whose ids are new, and whose answer is kept for some time. -/
def Fresh (db : Database) (input : RedeemInput) : Prop :=
  db.devices.has input.device_id = false ∧ db.credentials.has input.credential_id = false ∧
    input.now < input.redemption_result_expires_at

theorem insertDevice_ok (row : StoredRequest) {id : String} (hfresh : db.devices.has id = false)
    (huser : db.users.has owner = true) :
    db.insertDevice id (row.device owner now) =
      .ok { db with devices := db.devices.set id ⟨row.device owner now, checked_device row owner now⟩ } := by
  have hfirst : refuse (db.devices.has id = true ∨ ∃ user ∈ (row.device owner now).owner_user_id,
      db.users.has user = false) IdentityError.constraint = .ok () := by
    refine refuse_ok ?_
    rintro (hhas | ⟨user, hmem, hno⟩)
    · exact absurd (hfresh.symm.trans hhas) (by decide)
    · cases hmem
      exact absurd (hno.symm.trans huser) (by decide)
  unfold Database.insertDevice
  rw [hfirst, ok_bind, dif_pos (checked_device row owner now)]
  rfl

/-- A credential of a later generation of its device: the indexes decide. -/
theorem insertCredential_unique (db : Database) (id : String) (row : CredentialRow) (device : StoredDevice)
    (hdevice : db.devices.get? row.device_id = some device) (hlater : device.current_generation < row.generation)
    (hchecked : CredentialChecked row) :
    db.insertCredential id row =
      if Database.CredentialUnique { db with devices := (db.devices.set row.device_id
          ⟨{ device.toDeviceRow with current_generation := row.generation },
            checked_generation device.checked row.generation⟩) } id row then
        .ok { db with
          devices := (db.devices.set row.device_id
            ⟨{ device.toDeviceRow with current_generation := row.generation },
              checked_generation device.checked row.generation⟩)
          credentials := db.credentials.set id ⟨row, hchecked⟩ }
      else .error .constraint := by
  have hguarded : DeviceGuarded device.toDeviceRow
      { device.toDeviceRow with current_generation := row.generation } :=
    ⟨rfl, fun hrevoked => hrevoked, hlater.le⟩
  unfold Database.insertCredential
  rw [hdevice]
  dsimp only
  rw [refuse_ok (not_le.mpr hlater), ok_bind,
    updateDevice_ok hguarded (checked_generation device.checked row.generation), ok_bind]
  split_ifs with hunique
  · rw [refuse_ok (not_not.mpr hunique), ok_bind]
    rfl
  · rw [refuse_error hunique]
    rfl

/-- The credential of a device that was just inserted: its id has to be new. -/
theorem insertCredential_eq (h : Sound db) {row : StoredRequest} (hget : db.requests.get? row.id = some row)
    (hlive : row.state.live = true) {id credential_id : String} (hfresh : db.devices.has id = false) :
    Database.insertCredential
        { db with devices := db.devices.set id ⟨row.device owner now, checked_device row owner now⟩ } credential_id
        (row.credential id now) =
      if db.credentials.has credential_id = true then .error .constraint
      else .ok { db with
        devices := db.devices.set id ⟨{ row.device owner now with current_generation := 1 },
          checked_generation (checked_device row owner now) 1⟩
        credentials := db.credentials.set credential_id ⟨row.credential id now, checked_credential row id now⟩ } := by
  -- no credential has the key, which the request still holds, or is of the device, which is new
  have hothers : ∀ other ∈ db.credentials.values, other.key.fingerprint ≠ row.key.fingerprint ∧ other.device_id ≠ id := by
    intro other hmem
    obtain ⟨other_id, hother⟩ := OrdMap.mem_values.mp hmem
    obtain ⟨request, hrequest, hactive, hof, -, -, hkey⟩ := h.credentials other_id other hother
    constructor
    · intro hsame
      have heq := h.keys request.id row.id request row hrequest hget (.inr hactive) (.inl hlive) (by rw [hkey]; exact hsame)
      rw [heq, hget] at hrequest
      cases hrequest
      rw [hactive] at hlive
      cases hlive
    · intro hsame
      obtain ⟨device_id, _, _, _, _, _, hdevice, -, -, -, hfound, -⟩ := h.redeemed hrequest hactive
      cases hof.symm.trans hdevice
      rw [hsame] at hfound
      exact absurd (hfresh.symm.trans (has_of_get? hfound)) (by decide)
  have hunique : Database.CredentialUnique { db with
      devices := ((db.devices.set id ⟨row.device owner now, checked_device row owner now⟩).set id
        ⟨{ row.device owner now with current_generation := 1 },
          checked_generation (checked_device row owner now) 1⟩) } credential_id (row.credential id now) ↔
      db.credentials.has credential_id = false := by
    refine ⟨fun hboth => hboth.1, fun hhas => ⟨hhas, fun other hmem => ⟨(hothers other hmem).1, ?_, ?_⟩⟩⟩
    · exact fun hboth => (hothers other hmem).2 hboth.1
    · exact fun hboth => (hothers other hmem).2 hboth.1
  have hinserted := insertCredential_unique
    { db with devices := db.devices.set id ⟨row.device owner now, checked_device row owner now⟩ } credential_id
    (row.credential id now) ⟨row.device owner now, checked_device row owner now⟩ (OrdMap.get?_set_self _ _ _) Nat.one_pos
    (checked_credential row id now)
  refine hinserted.trans ?_
  by_cases hhas : db.credentials.has credential_id = true
  · rw [if_pos hhas]
    exact if_neg fun hboth => absurd ((hunique.mp hboth).symm.trans hhas) (by decide)
  · rw [if_neg hhas]
    refine (if_pos (hunique.mpr (Bool.not_eq_true _ ▸ hhas))).trans ?_
    show Except.ok (Database.mk _ _ ((db.devices.set id _).set id _) _ _ _) = _
    rw [OrdMap.set_set]
    rfl

theorem guarded_redeemed (row : StoredRequest) (happroved : row.state = .approved_pending_redemption)
    (input : RedeemInput) : RequestGuarded row.toAuthorizationRow (row.redeemed input) := by
  refine ⟨rfl, rfl, rfl, rfl, by rw [happroved]; rfl, .inr ?_, fun _ => ⟨rfl, rfl⟩⟩
  show AuthorizationState.active ∈ row.state.transitions
  rw [happroved]
  decide

theorem activate_cases (h : Sound db) {row : StoredRequest} (hget : db.requests.get? row.id = some row)
    (happroved : row.state = .approved_pending_redemption) (howner : row.approved_by_user_id = some owner)
    {input : RedeemInput} (hdue : input.now < row.expires_at)
    (hproven : ⟨row.id, row.device_code_hash, row.key.fingerprint⟩ ∈ e.redemptions) :
    (∃ db', db.activate row owner input = .ok db' ∧ Change e db db') ∨
      (db.activate row owner input = .error .constraint ∧ ¬ Fresh db input) := by
  have hlive : row.state.live = true := by rw [happroved]; rfl
  have huser : db.users.has owner = true := (h.references _ row hget).1 owner howner
  unfold Database.activate
  by_cases hdevice : db.devices.has input.device_id = true
  · right
    refine ⟨?_, fun hfresh => absurd (hfresh.1.symm.trans hdevice) (by decide)⟩
    unfold Database.insertDevice
    rw [refuse_error (.inl hdevice)]
    rfl
  have hdevice : db.devices.has input.device_id = false := Bool.not_eq_true _ ▸ hdevice
  rw [insertDevice_ok row hdevice huser, ok_bind, insertCredential_eq h hget hlive hdevice]
  by_cases hcredential : db.credentials.has input.credential_id = true
  · rw [if_pos hcredential]
    exact .inr ⟨rfl, fun hfresh => absurd (hfresh.2.1.symm.trans hcredential) (by decide)⟩
  rw [if_neg hcredential, ok_bind, refuse_ok (not_not.mpr happroved), ok_bind]
  have hcredential : db.credentials.has input.credential_id = false := Bool.not_eq_true _ ▸ hcredential
  by_cases hlater : input.now < input.redemption_result_expires_at
  · left
    have hchecked := checked_redeemed row happroved input hlater
    have hguarded : RequestGuarded row.toAuthorizationRow (row.redeemed input) :=
      guarded_redeemed row happroved input
    have hsound := sound_redeemed h row ⟨row.redeemed input, hchecked⟩ input owner
      ⟨{ row.device owner input.now with current_generation := 1 }, checked_generation (checked_device row owner input.now) 1⟩
      ⟨row.credential input.device_id input.now, checked_credential row input.device_id input.now⟩ hget happroved howner
      hdue (get?_of_has hdevice) (get?_of_has hcredential) rfl rfl rfl huser
    have hreferences : Database.References { db with
        devices := (db.devices.set input.device_id ⟨{ row.device owner input.now with current_generation := 1 },
          checked_generation (checked_device row owner input.now) 1⟩)
        credentials := (db.credentials.set input.credential_id
          ⟨row.credential input.device_id input.now, checked_credential row input.device_id input.now⟩) }
        (row.redeemed input) :=
      hsound.references row.id ⟨row.redeemed input, hchecked⟩ (OrdMap.get?_set_self _ _ _)
    refine ⟨_, ?_, .redeemed row ⟨row.redeemed input, hchecked⟩ input owner
      ⟨{ row.device owner input.now with current_generation := 1 }, checked_generation (checked_device row owner input.now) 1⟩
      ⟨row.credential input.device_id input.now, checked_credential row input.device_id input.now⟩ hget hproven happroved
      howner hdue (get?_of_has hdevice) (get?_of_has hcredential) rfl rfl rfl huser⟩
    exact congrArg (fun r => r >>= fun x => pure x.2) (updateRequest_ok row hguarded hchecked hreferences)
  · right
    refine ⟨?_, fun hfresh => hlater hfresh.2.2⟩
    have hunchecked : ¬ Checked (row.redeemed input) := by
      intro hchecked
      obtain ⟨-, -, -, -, -, -, -, t, ht, t', ht', hlt⟩ := hchecked.state_shape
      cases ht
      cases ht'
      exact hlater hlt
    have hguarded : RequestGuarded row.toAuthorizationRow (row.redeemed input) :=
      guarded_redeemed row happroved input
    unfold Database.updateRequest store
    rw [refuse_ok (not_not.mpr hguarded), ok_bind, dif_neg hunchecked]
    rfl

theorem redeem_cases (h : Sound db) (input : RedeemInput) (hproven : input.toRedemption ∈ e.redemptions) :
    (∃ answer db', redeem db input = .ok (answer, db') ∧ Changes e db db') ∨
      (redeem db input = .error .constraint ∧ ¬ Fresh db input) := by
  unfold redeem
  split
  · exact .inl ⟨_, _, rfl, .refl e db⟩
  · next selected hselected =>
    obtain ⟨hfound, hcode⟩ := Option.filter_eq_some_iff.mp hselected
    have hget := h.at hfound
    have hid := h.keyed _ selected hfound
    have hcode : selected.device_code_hash = input.device_code_hash := of_decide_eq_true hcode
    rcases expireIfDue_cases (e := e) h hget input.now with ⟨hsame, hdue⟩ | ⟨expired, hrow, hexpired, hchange⟩
    · rw [hsame, ok_bind]
      dsimp only
      split_ifs with hexpired hrefused hactive
      · exact .inl ⟨_, _, rfl, .refl e db⟩
      · exact .inl ⟨_, _, rfl, .refl e db⟩
      · cases selected.identity with
        | none => exact .inl ⟨_, _, rfl, .refl e db⟩
        | some identity => exact .inl ⟨_, _, rfl, .refl e db⟩
      · obtain ⟨hkey, hopen⟩ := not_or.mp hrefused
        obtain ⟨hdenied, hpending⟩ := not_or.mp hopen
        have happroved : selected.state = .approved_pending_redemption := by
          cases hstate : selected.state with
          | approved_pending_redemption => rfl
          | pending => exact absurd hstate hpending
          | active => exact absurd hstate hactive
          | denied => exact absurd hstate hdenied
          | expired => exact absurd hstate hexpired
        split
        · exact .inl ⟨_, _, rfl, .refl e db⟩
        · next owner howner =>
          have hproven : ⟨selected.id, selected.device_code_hash, selected.key.fingerprint⟩ ∈ e.redemptions := by
            rw [hid, hcode, not_not.mp hkey]
            exact hproven
          rcases activate_cases h hget happroved howner (hdue (by rw [happroved]; rfl)) hproven with
            ⟨db', hok, hchange⟩ | ⟨herror, hstale⟩
          · rw [hok]
            exact .inl ⟨_, _, rfl, hchange.one⟩
          · rw [herror]
            exact .inr ⟨rfl, hstale⟩
    · rw [hexpired, ok_bind]
      have hstate : expired.state = .expired := by rw [hrow]; rfl
      dsimp only
      rw [if_pos hstate]
      exact .inl ⟨_, _, rfl, hchange.one⟩

theorem revoke_cases (h : Sound db) (fenced : Bool) (input : RevokeInput) :
    (∃ outcome db', revoke db fenced input = .ok (outcome, db') ∧ Changes e db db') ∨
      revoke db fenced input = .error .device_not_found ∨ revoke db fenced input = .error .revocation_not_authorized ∨
      (revoke db fenced input = .error .cancellation_scope_conflict ∧ fenced = false) ∨
      (revoke db fenced input = .error .constraint ∧ ¬ ReasonChecked input.reason) := by
  unfold revoke
  split
  · next actor device hactor hdevice =>
    by_cases hrefused : actor = false ∨ device.owner_user_id ≠ some input.revoked_by_user_id
    · rw [refuse_error hrefused]
      exact .inr (.inr (.inl rfl))
    rw [refuse_ok hrefused, ok_bind]
    have hsound := h.devices _ device hdevice
    cases hstate : device.lifecycle with
    | revoked =>
      rw [if_pos rfl]
      cases hprior : db.revocations.get? input.device_id with
      | none => exact absurd (hsound.revoked hstate).1 (by unfold OrdMap.has; rw [hprior]; decide)
      | some prior => exact .inl ⟨_, _, rfl, .refl e db⟩
    | active =>
      rw [if_neg (by decide)]
      obtain ⟨hunrevoked, credential_id, credential, hget, hcurrent⟩ := hsound.active hstate
      have hcredential : ∃ credential ∈ db.credentials.values, credential.device_id = input.device_id ∧
          credential.generation = device.current_generation ∧ credential.state = .active :=
        ⟨credential, OrdMap.mem_values.mpr ⟨credential_id, hget⟩, hcurrent⟩
      rw [refuse_ok (not_not.mpr hcredential), ok_bind]
      by_cases hreason : ReasonChecked input.reason
      · have hnew : ¬ (db.revocations.has input.device_id = true ∨ ¬ ReasonChecked input.reason) := by
          rintro (hhas | hno)
          · exact absurd (hunrevoked.symm.trans hhas) (by decide)
          · exact hno hreason
        have hguarded : DeviceGuarded device.toDeviceRow (device.revoked input.revoked_at) :=
          ⟨rfl, fun _ => rfl, Nat.le_succ _⟩
        rw [refuse_ok hnew, ok_bind]
        by_cases hunfenced : fenced = false
        · rw [refuse_error hunfenced]
          exact .inr (.inr (.inr (.inl ⟨rfl, hunfenced⟩)))
        rw [refuse_ok hunfenced, ok_bind]
        dsimp only
        rw [updateDevice_ok hguarded (checked_revoked device input.revoked_at)]
        exact .inl ⟨_, _, rfl, Change.one (.revoked input.device_id device
          ⟨device.revoked input.revoked_at, checked_revoked device input.revoked_at⟩ _ input.revoked_at hdevice hstate rfl)⟩
      · rw [refuse_error (.inr hreason)]
        exact .inr (.inr (.inr (.inr ⟨rfl, hreason⟩)))
  · exact .inr (.inl rfl)

/-! ### New requests -/

theorem trim_notBlank {text : String} (h : Coordinator.trim text ≠ "") : notBlank (Coordinator.trim text) = true := by
  unfold Coordinator.trim at h ⊢
  obtain ⟨first, rest, hlist⟩ : ∃ first rest,
      (text.toList.dropWhile Coordinator.isTrimmed).reverse.dropWhile Coordinator.isTrimmed = first :: rest := by
    cases hlist : (text.toList.dropWhile Coordinator.isTrimmed).reverse.dropWhile Coordinator.isTrimmed with
    | nil => rw [hlist] at h; exact absurd rfl h
    | cons first rest => exact ⟨first, rest, rfl⟩
  have hfirst : Coordinator.isTrimmed first = false := by
    have := List.head?_dropWhile_not Coordinator.isTrimmed (text.toList.dropWhile Coordinator.isTrimmed).reverse
    rw [hlist] at this
    simpa using this
  unfold notBlank
  rw [hlist, String.toList_ofList, List.any_eq_true]
  refine ⟨first, by simp, ?_⟩
  rw [bne_iff_ne]
  rintro rfl
  exact absurd hfirst (by decide)

theorem length_le_codeUnits (text : String) : text.length ≤ Inference.codeUnits text := by
  unfold Inference.codeUnits
  calc text.length = (text.toList.map fun c => if 65536 ≤ c.toNat then 2 else 1).length := by
        rw [List.length_map, String.length_toList]
    _ ≤ _ := List.length_le_sum_of_one_le _ fun n hmem => by
      obtain ⟨c, -, rfl⟩ := List.mem_map.mp hmem
      split_ifs <;> omega

theorem createAuthorization_cases (h : Sound db) (options : EnrollmentOptions) (input : CreateInput) :
    (∃ answer db', createAuthorization options db input = .ok (answer, db') ∧ Changes e db db') ∨
      createAuthorization options db input = .error .invalid_device_metadata := by
  unfold createAuthorization
  dsimp only
  by_cases hrefused : Coordinator.trim input.proposed_name = "" ∨
      200 < Inference.codeUnits (Coordinator.trim input.proposed_name) ∨ Coordinator.trim input.architecture = "" ∨
      100 < Inference.codeUnits (Coordinator.trim input.architecture)
  · rw [refuse_error hrefused]
    exact .inr rfl
  rw [refuse_ok hrefused, ok_bind]
  left
  obtain ⟨hname, hrest⟩ := not_or.mp hrefused
  obtain ⟨hshort, hrest⟩ := not_or.mp hrest
  obtain ⟨harchitecture, hbrief⟩ := not_or.mp hrest
  generalize hrow : input.row options (Coordinator.trim input.proposed_name) (Coordinator.trim input.architecture) = row
  have hchecked : Checked row := by
    subst hrow
    refine ⟨⟨trim_notBlank hname, (length_le_codeUnits _).trans (not_lt.mp hshort), trim_notBlank harchitecture,
      (length_le_codeUnits _).trans (not_lt.mp hbrief)⟩, ⟨options.interval_pos, Nat.le_refl _⟩, ?_, rfl,
      rfl, rfl, rfl, rfl, rfl, rfl, rfl, rfl, rfl⟩
    exact lt_add_of_pos_right _ options.ttl_pos
  have hpending : row.state = .pending := by rw [← hrow]; rfl
  unfold Database.createAuthorization
  obtain ⟨db', hexpired, hchanges⟩ : ∃ db', db.expireKey row.key.fingerprint row.created_at = .ok db' ∧
      Changes e db db' := by
    unfold Database.expireKey
    split
    · exact ⟨_, rfl, .refl e db⟩
    · next other hother =>
      obtain ⟨current, db', hok, hchanges⟩ := expireIfDue_spec (e := e) h (h.found hother).1 row.created_at
      rw [hok]
      exact ⟨_, rfl, hchanges⟩
  rw [hexpired, ok_bind]
  unfold Database.insertRequest
  by_cases hused : ∃ credential ∈ db'.credentials.values, credential.key.fingerprint = row.key.fingerprint
  · rw [if_pos hused]
    exact ⟨_, _, rfl, hchanges⟩
  · rw [if_neg hused]
    unfold store
    rw [dif_pos hchecked, ok_bind]
    by_cases hunique : db'.RequestUnique row
    · rw [if_pos hunique]
      exact ⟨_, _, rfl, hchanges.then (.created ⟨row, hchecked⟩ hpending hunique
        fun credential hmem hsame => hused ⟨credential, hmem, hsame⟩)⟩
    · rw [if_neg hunique]
      exact ⟨_, _, rfl, hchanges⟩

end

end Norns.Devices.Identity
