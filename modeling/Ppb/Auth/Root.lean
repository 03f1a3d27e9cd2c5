import Ppb.Common.SharedStore
import Ppb.Server.Sql
import Ppb.Server.Types

/-!
# The root password (`auth/root.rs`, `auth/routes.rs`)

Root has one row in `root_credentials`: the hash of the password, and whether it has to be
changed. `bootstrap` makes the row, `ppctl` resets it, and root changes it, with the
current password unless it has to be changed. All of them read first and write later, so
what they have read may be gone by then.

`Db.log` has all that was ever in the row. A call carries how long the log was when it
began (`Op.born`), which is no part of the source: what was in the row since then is what
the call may have read.

* `Permits v op log c`: what a call may write, by what was in the row since it began.
* `root_changes`: in every run, whatever calls interleave and fail, a write is permitted, and
  a login has met a password that was in the row while it ran.
* `root_kept`: from a settled password on, only a reset or somebody who knows it takes it
  away.

Deviation: the server has a database: the error of `require_db` is left out.
-/

namespace Ppb.Root

open Prog Shared Trace

/-! ## The row -/

structure Credential where
  passwordHash : String
  mustChangePassword : Bool
  deriving DecidableEq

/-- All that was ever in the row, newest last. -/
structure Db where
  log : List Credential

def Db.new : Db := ⟨[]⟩

def Db.row (db : Db) : Option Credential := db.log.getLast?

/-- `bcrypt::verify(password, hash)`. -/
structure Bcrypt where
  verify : String → String → Except String Bool

/-- The alphabet of `generate_random_password` (auth/root.rs:129). -/
def charset : List Char := "ABCDEFGHJKLMNPQRSTUVWXYZabcdefghijkmnopqrstuvwxyz23456789!@#$%^&*".toList

/-- Where the sixteen characters come from. -/
abbrev Draws := Fin 16 → Fin charset.length

def passwordOf (draws : Draws) : String := String.ofList (List.ofFn fun i => charset.get (draws i))

inductive Query where
  /-- `SELECT EXISTS(..)` (auth/root.rs:34-39) -/
  | exists
  /-- `SELECT password_hash, must_change_password ..` (auth/root.rs:62-68) -/
  | credentials
  /-- `SELECT must_change_password ..` (auth/root.rs:80-85) -/
  | mustChange
  | draw
  /-- `bcrypt::hash` -/
  | hash (password : String)
  /-- `INSERT .. ON CONFLICT (id) DO UPDATE ..` (auth/root.rs:46-57) -/
  | insert (hash : String)
  /-- `UPDATE .. must_change_password = TRUE ..` (auth/root.rs:95-103) -/
  | reset (hash : String)
  /-- `UPDATE .. must_change_password = FALSE ..` (auth/root.rs:114-122) -/
  | change (hash : String)
  deriving DecidableEq

@[reducible]
def Query.Answer : Query → Type
  | .exists => Except DbError Bool
  | .credentials => Except DbError (Option Credential)
  | .mustChange => Except DbError Bool
  | .draw => Draws
  | .hash _ => Except String String
  | .insert _ => Except DbError Unit
  | .reset _ => Except DbError Unit
  | .change _ => Except DbError Unit

/-- An `UPDATE` of the row, if there is one. -/
def Db.update (db : Db) (c : Credential) : Db := if db.row.isSome then ⟨db.log ++ [c]⟩ else db

/-- A hash verifies its password. -/
def exec (v : Bcrypt) (db : Db) (e : Event Query Query.Answer) : Option Db :=
  match e with
  | ⟨.exists, a⟩ => reads db db.row.isSome a
  | ⟨.credentials, a⟩ => reads db db.row a
  | ⟨.mustChange, .ok b⟩ => if db.row.map (·.mustChangePassword) = some b then some db else none
  | ⟨.mustChange, .error .rowNotFound⟩ => if db.row = none then some db else none
  | ⟨.mustChange, .error .other⟩ => some db
  | ⟨.draw, _⟩ => some db
  | ⟨.hash password, .ok hash⟩ => match v.verify password hash with
    | .ok true => some db
    | _ => none
  | ⟨.hash _, .error _⟩ => some db
  | ⟨.insert hash, a⟩ => orUnchanged db (fun _ => some ⟨db.log ++ [⟨hash, true⟩]⟩) a
  | ⟨.reset hash, a⟩ => orUnchanged db (fun _ => some (db.update ⟨hash, true⟩)) a
  | ⟨.change hash, a⟩ => orUnchanged db (fun _ => some (db.update ⟨hash, false⟩)) a

/-! ## The handlers -/

abbrev Handler (α : Type) := Prog Query Query.Answer ApiError α

abbrev ask (q : Query) : Handler q.Answer := query q

/-- `db_err` (auth/root.rs:136-143). -/
def rootErr : DbError → ApiError := dbErr .resourceNotFound "root credentials not found"

/-- A random password and its hash. -/
def hashed (password : String) : Handler String := do
  let hash ← ask (.hash password)
  match hash with
  | .ok hash => pure hash
  | .error _ => fail .internal

/-- `generate_random_password` (auth/root.rs:128-134). -/
def generateRandomPassword : Handler String := do
  let draws ← ask .draw
  return passwordOf draws

/-- `bootstrap` (auth/root.rs:33-59). -/
def bootstrap : Handler (Option String) := do
  let there ← mapErr rootErr (← ask .exists)
  if there = true then return none
  let password ← generateRandomPassword
  let hash ← hashed password
  mapErr rootErr (← ask (.insert hash))
  return some password

/-- `verify` (auth/root.rs:61-77); the result is `must_change_password`. -/
def verify (v : Bcrypt) (password : String) : Handler Bool := do
  let row ← mapErr rootErr (← ask .credentials)
  let c ← ofOption (.new .authRequired "root not initialized") row
  match v.verify password c.passwordHash with
  | .error _ => fail .internal
  | .ok false => fail (.new .rootPasswordInvalid "invalid root password")
  | .ok true => return c.mustChangePassword

/-- `must_change_password` (auth/root.rs:79-87). -/
def mustChangePassword : Handler Bool := do
  mapErr rootErr (← ask .mustChange)

/-- `reset_password` (auth/root.rs:91-105). -/
def resetPassword : Handler String := do
  let password ← generateRandomPassword
  let hash ← hashed password
  mapErr rootErr (← ask (.reset hash))
  return password

/-- `change_password` (auth/root.rs:108-124). -/
def changePassword (newPassword : String) : Handler Unit := do
  failIf (newPassword.utf8ByteSize < 12) (.validation "root password must be at least 12 chars")
  let hash ← hashed newPassword
  mapErr rootErr (← ask (.change hash))

/-- `root_session` (auth/routes.rs:894-909). -/
def rootSession (auth : AuthPrincipal) : Handler Bool := do
  failIf (auth.isRoot = false) .permissionDenied
  mustChangePassword

/-- `root_change_password` (auth/routes.rs:923-942). -/
def rootChangePassword (v : Bcrypt) (auth : AuthPrincipal) (currentPassword : Option String)
    (newPassword : String) : Handler Unit := do
  failIf (auth.isRoot = false) .permissionDenied
  let mustChange ← mustChangePassword
  if mustChange = true then changePassword newPassword
  else do
    let current ← ofOption (.validation "current_password required") currentPassword
    let _ ← verify v current
    changePassword newPassword

/-! ## The calls -/

inductive Call where
  | bootstrap
  | resetPassword
  | login (password : String)
  | session (auth : AuthPrincipal)
  | changePassword (auth : AuthPrincipal) (currentPassword : Option String) (newPassword : String)

/-- A call, and how long the log was when it began. -/
structure Op where
  call : Call
  born : ℕ

/-- What a call returns: a password for the console, or whether the password has to be changed. -/
inductive Outcome where
  | printed (password : Option String)
  | mustChange (b : Bool)
  | changed

def Op.program (v : Bcrypt) (op : Op) : Handler Outcome :=
  match op.call with
  | .bootstrap => Outcome.printed <$> Root.bootstrap
  | .resetPassword => (fun password => .printed (some password)) <$> Root.resetPassword
  | .login password => Outcome.mustChange <$> verify v password
  | .session auth => Outcome.mustChange <$> rootSession auth
  | .changePassword auth currentPassword newPassword =>
    (fun _ => .changed) <$> rootChangePassword v auth currentPassword newPassword

abbrev System := Pool Query Query.Answer Db Op ApiError Outcome

abbrev step (v : Bcrypt) : System → Label Query Query.Answer Op → Option System :=
  Pool.step (exec v) (Op.program v)

/-- A call begins now. -/
def Born (db : Db) (op : Op) : Prop := op.born = db.log.length

abbrev Ok : System → Label Query Query.Answer Op → Prop := Pool.Ok Born fun _ _ _ => True

/-- `c` was in the row at some moment since the call began. -/
def Since (born : ℕ) (log : List Credential) (c : Credential) : Prop :=
  ∃ i, born ≤ i + 1 ∧ log[i]? = some c

/-- The hash is one of the password. -/
def Opens (v : Bcrypt) (password : String) (c : Credential) : Prop :=
  v.verify password c.passwordHash = .ok true

/-- What a call may put into the row. The console generates a password that has to be changed, at
    first only where there was no row yet. Root chooses one of twelve bytes or more if the password
    in the row had to be changed or was named, at some moment since the call began. -/
def Permits (v : Bcrypt) (op : Op) (log : List Credential) (c : Credential) : Prop :=
  match op.call with
  | .bootstrap => op.born = 0 ∧ c.mustChangePassword = true ∧ ∃ draws, Opens v (passwordOf draws) c
  | .resetPassword => c.mustChangePassword = true ∧ ∃ draws, Opens v (passwordOf draws) c
  | .changePassword auth currentPassword newPassword =>
    auth.isRoot = true ∧ c.mustChangePassword = false ∧ 12 ≤ newPassword.utf8ByteSize ∧
      Opens v newPassword c ∧ ∃ c', Since op.born log c' ∧
        (c'.mustChangePassword = true ∨ ∃ current ∈ currentPassword, Opens v current c')
  | _ => False

/-- What a step of a call does. -/
def Writes (v : Bcrypt) (op : Op) (db db' : Db) : Prop :=
  db' = db ∨ ∃ c, db'.log = db.log ++ [c] ∧ Permits v op db.log c

/-- What others do. -/
def Grows (db db' : Db) : Prop := db.log <+: db'.log

/-- What a call that has succeeded has met. -/
def Met (v : Bcrypt) (op : Op) (db : Db) (r : Except ApiError Outcome) : Prop :=
  match op.call, r with
  | .login password, .ok (.mustChange b) =>
    ∃ c, Since op.born db.log c ∧ Opens v password c ∧ c.mustChangePassword = b
  | .session auth, .ok (.mustChange b) =>
    auth.isRoot = true ∧ ∃ c, Since op.born db.log c ∧ c.mustChangePassword = b
  | _, _ => True

/-! ## What a statement does -/

variable {v : Bcrypt} {db db' s : Db} {op : Op} {c : Credential} {born : ℕ}
  {log log' : List Credential} {password : String}

theorem exec_mustChange {a : Except DbError Bool} (h : exec v db ⟨.mustChange, a⟩ = some db') :
    db' = db ∧ ∀ b, a = .ok b → ∃ c, db.row = some c ∧ c.mustChangePassword = b := by
  match a with
  | .ok b =>
    simp only [exec] at h
    split_ifs at h with hrow
    refine ⟨(Option.some.inj h).symm, fun b' hb => ?_⟩
    rw [← Except.ok.inj hb]
    exact Option.map_eq_some_iff.mp hrow
  | .error .rowNotFound =>
    simp only [exec] at h
    split_ifs at h
    exact ⟨(Option.some.inj h).symm, by simp⟩
  | .error .other => exact ⟨(Option.some.inj h).symm, by simp⟩

theorem exec_hash {a : Except String String} (h : exec v db ⟨.hash password, a⟩ = some db') :
    db' = db ∧ ∀ hash, a = .ok hash → v.verify password hash = .ok true := by
  match a with
  | .ok hash =>
    simp only [exec] at h
    split at h
    · rename_i hverify
      refine ⟨(Option.some.inj h).symm, fun hash' heq => ?_⟩
      rw [← Except.ok.inj heq]
      exact hverify
    · cases h
  | .error e => exact ⟨(Option.some.inj h).symm, by simp⟩

theorem update_log (c : Credential) : db.update c = db ∨ (db.update c).log = db.log ++ [c] := by
  unfold Db.update
  split_ifs
  · exact .inr rfl
  · exact .inl rfl

/-- What is in the row now was there since any call in progress began. -/
theorem since_row (hborn : born ≤ db.log.length) (hrow : db.row = some c) : Since born db.log c := by
  have hlast : db.log[db.log.length - 1]? = some c := by
    rw [← hrow, Db.row, List.getLast?_eq_getElem?]
  have hpos : 0 < db.log.length := by
    by_contra hzero
    have hnil : db.log = [] := List.length_eq_zero_iff.mp (by omega)
    rw [Db.row, hnil] at hrow
    cases hrow
  exact ⟨db.log.length - 1, by omega, hlast⟩

theorem Since.mono (h : Since born log c) (hpre : log <+: log') : Since born log' c := by
  obtain ⟨i, hi, hc⟩ := h
  obtain ⟨more, rfl⟩ := hpre
  have hlt : i < log.length := (List.getElem?_eq_some_iff.mp hc).1
  exact ⟨i, hi, by rw [List.getElem?_append_left hlt, hc]⟩

theorem grows_refl (db : Db) : Grows db db := List.prefix_rfl

theorem grows_of_writes (h : Writes v op db db') : Grows db db' := by
  rcases h with rfl | ⟨c, hlog, -⟩
  · exact grows_refl db'
  · rw [Grows, hlog]
    exact List.prefix_append _ _

theorem writes_update (hpermits : Permits v op db.log c) : Writes v op db (db.update c) :=
  (update_log c).imp_right fun hlog => ⟨c, hlog, hpermits⟩

/-- A statement that fails writes nothing. -/
theorem writes_orUnchanged {a : Except DbError Unit} {db₁ : Db}
    (h : orUnchanged db (fun _ => some db₁) a = some db') (hwrites : Writes v op db db₁) :
    Writes v op db db' := by
  rcases orUnchanged_cases h with rfl | ⟨-, -, hdone⟩
  · exact .inl rfl
  · exact Option.some.inj hdone ▸ hwrites

/-! ## What a call does -/

/-- Whatever the others do meanwhile, `p` writes what `op` may write, and if it succeeds it ends in
    `P`. -/
abbrev Careful (v : Bcrypt) (op : Op) {α : Type} (p : Handler α) (s : Db) (P : Db → α → Prop) :
    Prop :=
  Safe (fun s e s' => exec v s e = some s' ∧ True) (fun _ => True) Grows (Writes v op) p s
    fun s' r => ∀ a, r = .ok a → P s' a

section Careful

variable {α β : Type} {P : Db → α → Prop} {P' : Db → β → Prop}

theorem careful_pure {a : α} (h : ∀ s₁, Grows s s₁ → P s₁ a) : Careful v op (pure a) s P :=
  fun s₁ hR _ _ ha => Except.ok.inj ha ▸ h s₁ hR

theorem careful_fail {e : ApiError} : Careful v op (fail e) s P := fun _ _ _ _ ha => by cases ha

/-- In sequence, where the second part also uses what the log was before the first. -/
theorem careful_bind_since {p : Handler α} {k : α → Handler β} (hp : Careful v op p s P)
    (hk : ∀ s₁ a, Grows s s₁ → P s₁ a → Careful v op (k a) s₁ P') :
    Careful v op (p >>= k) s P' := by
  have hlater := safe_since grows_refl List.IsPrefix.trans grows_of_writes hp
  refine safe_bind grows_refl trivial hlater (fun s₁ a _ hpost => ?_) fun _ _ _ _ _ h => by cases h
  obtain ⟨hR, hdone⟩ := hpost
  exact hk s₁ a hR (hdone a rfl)

theorem careful_bind {p : Handler α} {k : α → Handler β} (hp : Careful v op p s P)
    (hk : ∀ s₁ a, P s₁ a → Careful v op (k a) s₁ P') : Careful v op (p >>= k) s P' :=
  careful_bind_since hp fun s₁ a _ h => hk s₁ a h

/-- A statement that changes nothing. -/
theorem careful_read {q : Query} {k : q.Answer → Handler α}
    (hsame : ∀ db a db', exec v db ⟨q, a⟩ = some db' → db' = db)
    (h : ∀ s₁ a, Grows s s₁ → exec v s₁ ⟨q, a⟩ = some s₁ → Careful v op (k a) s₁ P) :
    Careful v op (ask q >>= k) s P := by
  refine safe_ask fun s₁ hR _ a s₂ hdoes => ?_
  obtain rfl := hsame _ _ _ hdoes.1
  exact ⟨⟨trivial, .inl rfl⟩, h s₂ a hR hdoes.1⟩

theorem careful_write {q : Query} {k : q.Answer → Handler α}
    (hwrites : ∀ s₁ a s₂, Grows s s₁ → exec v s₁ ⟨q, a⟩ = some s₂ → Writes v op s₁ s₂)
    (h : ∀ s₁ a, Careful v op (k a) s₁ P) : Careful v op (ask q >>= k) s P :=
  safe_ask fun s₁ hR _ a s₂ hdoes => ⟨⟨trivial, hwrites s₁ a s₂ hR hdoes.1⟩, h s₂ a⟩

theorem careful_mapErr {a : Except DbError α} (h : ∀ x, a = .ok x → ∀ s₁, Grows s s₁ → P s₁ x) :
    Careful v op (mapErr rootErr a) s P := by
  cases a with
  | ok x => exact careful_pure (h x rfl)
  | error e => exact careful_fail

end Careful

theorem careful_hashed : Careful v op (hashed password) s fun _ hash =>
    v.verify password hash = .ok true := by
  refine careful_read (fun _ _ _ h => (exec_hash h).1) fun s₁ a _ hdoes => ?_
  cases a with
  | ok hash => exact careful_pure fun _ _ => (exec_hash hdoes).2 hash rfl
  | error e => exact careful_fail

theorem careful_generate : Careful v op generateRandomPassword s fun _ password =>
    ∃ draws, password = passwordOf draws :=
  careful_read (fun _ _ _ h => (Option.some.inj h).symm) fun _ draws _ _ =>
    careful_pure fun _ _ => ⟨draws, rfl⟩

theorem careful_verify (hborn : op.born ≤ s.log.length) :
    Careful v op (verify v password) s fun s' b =>
      ∃ c, Since op.born s'.log c ∧ Opens v password c ∧ c.mustChangePassword = b := by
  refine careful_read (fun _ _ _ h => (reads_cases h).1) fun s₁ a hR hdoes => ?_
  refine careful_bind (P := fun s' row => ∀ c, row = some c → Since op.born s'.log c)
    (careful_mapErr fun row hrow s₂ hR' c hc => ?_) fun s₂ row hrow => ?_
  · have hthere : row = s₁.row := (reads_cases hdoes).2 row hrow
    exact (since_row (hborn.trans hR.length_le) (hthere.symm.trans hc)).mono hR'
  · cases row with
    | none => exact careful_fail
    | some c =>
      show Careful v op (match v.verify password c.passwordHash with
        | .error _ => fail .internal
        | .ok false => fail (.new .rootPasswordInvalid "invalid root password")
        | .ok true => pure c.mustChangePassword) s₂ _
      split
      · exact careful_fail
      · exact careful_fail
      · rename_i hopens
        exact careful_pure fun s₃ hR' => ⟨c, (hrow c rfl).mono hR', hopens, rfl⟩

theorem careful_mustChange (hborn : op.born ≤ s.log.length) :
    Careful v op mustChangePassword s fun s' b =>
      ∃ c, Since op.born s'.log c ∧ c.mustChangePassword = b := by
  refine careful_read (fun _ _ _ h => (exec_mustChange h).1) fun s₁ a hR hdoes => ?_
  refine careful_mapErr fun b hb s₂ hR' => ?_
  obtain ⟨c, hrow, hc⟩ := (exec_mustChange hdoes).2 b hb
  exact ⟨c, (since_row (hborn.trans hR.length_le) hrow).mono hR', hc⟩

/-- `change_password`, once the call may do so. -/
theorem careful_change {auth : AuthPrincipal} {currentPassword : Option String}
    {newPassword : String} (hcall : op.call = .changePassword auth currentPassword newPassword)
    (hroot : auth.isRoot = true) {c' : Credential} (hsince : Since op.born s.log c')
    (hmay : c'.mustChangePassword = true ∨ ∃ current ∈ currentPassword, Opens v current c') :
    Careful v op (changePassword newPassword) s fun _ _ => True := by
  refine safe_failIf_bind (fun _ _ _ _ _ h => by cases h) fun hlong => ?_
  refine careful_bind_since careful_hashed fun s₁ hash hR hverify => ?_
  refine careful_write (fun s₂ a s₃ hR' hexec => writes_orUnchanged hexec (writes_update ?_))
    fun _ _ => careful_mapErr fun _ _ _ _ => trivial
  unfold Permits
  rw [hcall]
  exact ⟨hroot, rfl, not_lt.mp hlong, hverify, c', (hsince.mono hR).mono hR', hmay⟩

theorem careful_rootChangePassword {auth : AuthPrincipal} {currentPassword : Option String}
    {newPassword : String} (hcall : op.call = .changePassword auth currentPassword newPassword)
    (hborn : op.born ≤ s.log.length) :
    Careful v op (rootChangePassword v auth currentPassword newPassword) s fun _ _ => True := by
  refine safe_failIf_bind (fun _ _ _ _ _ h => by cases h) fun hroot => ?_
  have hroot' : auth.isRoot = true := by simpa using hroot
  refine careful_bind_since (careful_mustChange hborn) fun s₁ mustChange hR hseen => ?_
  obtain ⟨c, hsince, hc⟩ := hseen
  cases mustChange with
  | true => exact careful_change hcall hroot' hsince (.inl hc)
  | false =>
    cases currentPassword with
    | none => exact careful_fail
    | some current =>
      show Careful v op (verify v current >>= fun _ => changePassword newPassword) s₁ _
      refine careful_bind (careful_verify (hborn.trans hR.length_le)) fun s₂ b hverified => ?_
      obtain ⟨c', hsince', hopens, -⟩ := hverified
      exact careful_change hcall hroot' hsince' (.inr ⟨current, rfl, hopens⟩)

theorem careful_resetPassword (hcall : op.call = .resetPassword) :
    Careful v op resetPassword s fun _ _ => True := by
  refine careful_bind careful_generate fun s₁ password hdrawn => ?_
  refine careful_bind careful_hashed fun s₂ hash hverify => ?_
  refine careful_write (fun s₃ a s₄ _ hexec => writes_orUnchanged hexec (writes_update ?_))
    fun _ _ => careful_bind (careful_mapErr fun _ _ _ _ => trivial) fun _ _ _ =>
      careful_pure fun _ _ => trivial
  obtain ⟨draws, rfl⟩ := hdrawn
  unfold Permits
  rw [hcall]
  exact ⟨rfl, draws, hverify⟩

theorem careful_bootstrap (hcall : op.call = .bootstrap) (hborn : op.born ≤ s.log.length) :
    Careful v op bootstrap s fun _ _ => True := by
  refine careful_read (fun _ _ _ h => (reads_cases h).1) fun s₁ a hR hdoes => ?_
  refine careful_bind (P := fun _ there => there = false → op.born = 0)
    (careful_mapErr fun there hthere s₂ _ hfalse => ?_) fun s₂ there hzero => ?_
  · -- there is no row, so there was none when the call began
    have hrow : s₁.row.isSome = false := by
      rw [← (reads_cases hdoes).2 there hthere, hfalse]
    have hnil : s₁.log = [] := by
      by_contra hne
      rw [Db.row, List.getLast?_eq_some_getLast hne] at hrow
      cases hrow
    have hlen := hborn.trans hR.length_le
    rw [hnil] at hlen
    exact Nat.le_zero.mp hlen
  · cases there with
    | true => exact careful_pure fun _ _ => trivial
    | false =>
      refine careful_bind careful_generate fun s₃ password hdrawn => ?_
      refine careful_bind careful_hashed fun s₄ hash hverify => ?_
      refine careful_write (fun s₅ a s₆ _ hexec =>
        writes_orUnchanged hexec (.inr ⟨_, rfl, ?_⟩)) fun _ _ =>
          careful_bind (careful_mapErr fun _ _ _ _ => trivial) fun _ _ _ =>
            careful_pure fun _ _ => trivial
      obtain ⟨draws, rfl⟩ := hdrawn
      unfold Permits
      rw [hcall]
      exact ⟨hzero rfl, rfl, draws, hverify⟩

/-! ## Runs -/

/-- A call that has failed has met nothing, so only a result counts. -/
theorem met_of_ok {r : Except ApiError Outcome}
    (h : ∀ outcome, r = .ok outcome → Met v op s (.ok outcome)) : Met v op s r := by
  cases r with
  | ok outcome => exact h outcome rfl
  | error e =>
    unfold Met
    split <;> trivial

theorem careful_program (hborn : Born s op) :
    Safe (fun s e s' => exec v s e = some s' ∧ True) (fun _ => True) Grows (Writes v op)
      (op.program v) s (Met v op) := by
  have hle : op.born ≤ s.log.length := le_of_eq hborn
  obtain ⟨call, born⟩ := op
  refine safe_mono (P := fun s' r => ∀ outcome, r = .ok outcome →
    Met v ⟨call, born⟩ s' (.ok outcome)) ?_ fun _ _ => met_of_ok
  cases call with
  | bootstrap =>
    exact careful_bind (careful_bootstrap rfl hle) fun _ _ _ => careful_pure fun _ _ => trivial
  | resetPassword =>
    exact careful_bind (careful_resetPassword rfl) fun _ _ _ => careful_pure fun _ _ => trivial
  | login password =>
    refine careful_bind (careful_verify hle) fun s₁ b hmet => careful_pure fun s₂ hR => ?_
    obtain ⟨c, hsince, hopens, hc⟩ := hmet
    exact ⟨c, hsince.mono hR, hopens, hc⟩
  | session auth =>
    show Careful v _ ((failIf (auth.isRoot = false) .permissionDenied >>=
      fun _ => mustChangePassword) >>= fun b => (pure (.mustChange b) : Handler Outcome)) s _
    refine careful_bind (P := fun s' b => auth.isRoot = true ∧
      ∃ c, Since born s'.log c ∧ c.mustChangePassword = b) ?_ fun s₁ b hmet =>
        careful_pure fun s₂ hR => ?_
    · refine safe_failIf_bind (fun _ _ _ _ _ h => by cases h) fun hroot => ?_
      exact safe_mono (careful_mustChange hle) fun s' r h b hb => ⟨by simpa using hroot, h b hb⟩
    · obtain ⟨hroot, c, hsince, hc⟩ := hmet
      exact ⟨hroot, c, hsince.mono hR, hc⟩
  | changePassword auth currentPassword newPassword =>
    exact careful_bind (careful_rootChangePassword rfl hle) fun _ _ _ =>
      careful_pure fun _ _ => trivial

theorem careful_run {p₀ p : System} (hempty : p₀.threads = [])
    (hrun : Reaches (step v) Ok p₀ p) :
    True ∧ ∀ t ∈ p.threads, Safe (fun s e s' => exec v s e = some s' ∧ True) (fun _ => True) Grows
      (Writes v t.1) t.2 p.store (Met v t.1) :=
  Pool.safe (I := fun _ => True) (E := fun _ _ _ => True) (G := fun op => Writes v op)
    (W := Met v) grows_refl List.IsPrefix.trans (fun _ _ _ => grows_of_writes)
    (fun _ _ _ hborn => careful_program hborn) trivial hempty hrun

/-- In every run from an empty table, each step leaves the row alone or puts something there that
    its call may; and a call that has let somebody in was shown a password that was in the row while
    it ran. -/
theorem root_changes (v : Bcrypt) (p : System) (hrun : Reaches (step v) Ok ⟨.new, []⟩ p) :
    (∀ i e p' t, p.threads[i]? = some t → step v p (.answer i e) = some p' →
      Writes v t.1 p.store p'.store) ∧
    ∀ t ∈ p.threads, ∀ r, t.2.result = some r → Met v t.1 p.store r := by
  obtain ⟨-, hsafe⟩ := careful_run rfl hrun
  constructor
  · rintro i e p' ⟨op, rest⟩ hi hstep
    exact Pool.guarantee (E := fun _ _ _ => True) (G := fun op => Writes v op) grows_refl trivial
      hsafe hi trivial hstep
  · rintro ⟨op, rest⟩ ht r hr
    have hrest := hsafe _ ht
    cases rest with
    | done r' =>
      obtain rfl : r' = r := Option.some.inj hr
      exact hrest p.store (grows_refl _) trivial
    | ask q next => cases hr

/-- The hash of a password is its text. -/
def plainBcrypt : Bcrypt := ⟨fun password hash => .ok (password == hash)⟩

def sampleRoot : AuthPrincipal := ⟨0, 0, .root, .panel, ""⟩

/-- `bootstrap` prints a password, and root replaces it. -/
def sampleRun : List (Label Query Query.Answer Op) :=
  [.spawn ⟨.bootstrap, 0⟩, .answer 0 ⟨.exists, .ok false⟩, .answer 0 ⟨.draw, fun _ => ⟨0, by decide⟩⟩,
    .answer 0 ⟨.hash "AAAAAAAAAAAAAAAA", .ok "AAAAAAAAAAAAAAAA"⟩,
    .answer 0 ⟨.insert "AAAAAAAAAAAAAAAA", .ok ()⟩,
    .spawn ⟨.changePassword sampleRoot none "correct horse", 1⟩, .answer 1 ⟨.mustChange, .ok true⟩,
    .answer 1 ⟨.hash "correct horse", .ok "correct horse"⟩,
    .answer 1 ⟨.change "correct horse", .ok ()⟩]

instance (db : Db) (op : Op) : Decidable (Born db op) := inferInstanceAs (Decidable (_ = _))

theorem root_changes_first : ∃ p, Reaches (step plainBcrypt) Ok ⟨.new, []⟩ p ∧
    p.store.log = [⟨"AAAAAAAAAAAAAAAA", true⟩, ⟨"correct horse", false⟩] ∧
    ∀ t ∈ p.threads, ∀ r, t.2.result = some r → Met plainBcrypt t.1 p.store r := by
  have hrun : (runWhile (step plainBcrypt) (fun p l => decide (Ok p l)) ⟨.new, []⟩ sampleRun).any
      (fun p => decide (p.store.log =
        [⟨"AAAAAAAAAAAAAAAA", true⟩, ⟨"correct horse", false⟩])) = true := by decide +kernel
  obtain ⟨p, hp, hlog⟩ := exists_reaches_of_runWhile (fun _ _ h => of_decide_eq_true h) hrun
  exact ⟨p, hp, of_decide_eq_true hlog, (root_changes plainBcrypt p hp).2⟩

/-! ## A password that is settled -/

/-- Somebody who does not know the password with this hash; and no reset. -/
def Stranger (v : Bcrypt) (hash : String) (op : Op) : Prop :=
  match op.call with
  | .resetPassword => False
  | .changePassword _ currentPassword _ =>
    ∀ current ∈ currentPassword, v.verify current hash ≠ .ok true
  | _ => True

/-- A call that began with this log, and may change it, is no stranger's. -/
theorem not_permits_of_stranger {hash : String} (hlast : log.getLast? = some ⟨hash, false⟩)
    (hborn : op.born = log.length) (hstranger : Stranger v hash op) : ¬ Permits v op log c := by
  have hne : log ≠ [] := by
    rintro rfl
    cases hlast
  have hpos : 0 < log.length := List.length_pos_iff.mpr hne
  intro hpermits
  unfold Permits at hpermits
  unfold Stranger at hstranger
  split at hpermits
  · have hzero := hpermits.1
    omega
  · rename_i hcall
    rw [hcall] at hstranger
    exact hstranger
  · rename_i auth currentPassword newPassword hcall
    rw [hcall] at hstranger
    obtain ⟨-, -, -, -, c', ⟨i, hi, hc'⟩, hmay⟩ := hpermits
    have hlt : i < log.length := (List.getElem?_eq_some_iff.mp hc').1
    have heq : c' = ⟨hash, false⟩ := by
      rw [List.getLast?_eq_getElem?, show log.length - 1 = i by omega, hc'] at hlast
      exact Option.some.inj hlast
    subst heq
    rcases hmay with hmust | ⟨current, hcurrent, hopens⟩
    · cases hmust
    · exact hstranger current hcurrent hopens
  · exact hpermits

/-- While only strangers call, the password stays: a session of root alone does not take it away,
    and neither does a server that starts. -/
theorem root_kept (v : Bcrypt) (log : List Credential) (hash : String)
    (hlast : log.getLast? = some ⟨hash, false⟩) (p : System)
    (hrun : Reaches (step v) (Pool.Ok (fun db op => Born db op ∧ Stranger v hash op)
      fun _ _ _ => True) ⟨⟨log⟩, []⟩ p) : p.store.log = log := by
  suffices hall : p.store.log = log ∧
      ∀ t ∈ p.threads, t.1.born = log.length ∧ Stranger v hash t.1 from hall.1
  induction hrun with
  | start => exact ⟨rfl, by simp⟩
  | @next p p' l hreach hok hstep ih =>
    obtain ⟨hlog, hthreads⟩ := ih
    cases l with
    | spawn op =>
      obtain rfl := Option.some.inj hstep
      refine ⟨hlog, fun t ht => ?_⟩
      rcases List.mem_append.mp ht with ht | ht
      · exact hthreads t ht
      · rw [List.mem_singleton.mp ht, ← hlog]
        exact hok
    | answer i e =>
      obtain ⟨op, rest, rest', hi, -, -, hset⟩ := Pool.step_answer hstep
      obtain ⟨hborn, hstranger⟩ := hthreads _ (List.mem_of_getElem? hi)
      have hreach' : Reaches (step v) Ok ⟨⟨log⟩, []⟩ p := hreach.mono fun s l h => by
        cases l with
        | spawn op => exact h.1
        | answer i e => exact h
      have hwrites : Writes v op p.store p'.store :=
        Pool.guarantee (E := fun _ _ _ => True) (G := fun op => Writes v op) grows_refl trivial
          (careful_run rfl hreach').2 hi trivial hstep
      constructor
      · rcases hwrites with hsame | ⟨c, -, hpermits⟩
        · rw [hsame, hlog]
        · rw [hlog] at hpermits
          exact absurd hpermits (not_permits_of_stranger hlast hborn hstranger)
      · intro t ht
        rw [hset] at ht
        rcases List.mem_or_eq_of_mem_set ht with ht | rfl
        · exact hthreads t ht
        · exact ⟨hborn, hstranger⟩

/-- Somebody with a session of root, but without the password, tries to change it. -/
theorem root_kept_stranger : ∃ p, Reaches (step plainBcrypt)
    (Pool.Ok (fun db op => Born db op ∧ Stranger plainBcrypt "correct horse" op)
      fun _ _ _ => True) ⟨⟨[⟨"correct horse", false⟩]⟩, []⟩ p ∧
    p.threads.length = 1 ∧ p.store.log = [⟨"correct horse", false⟩] := by
  have hbegin : Reaches (step plainBcrypt)
      (Pool.Ok (fun db op => Born db op ∧ Stranger plainBcrypt "correct horse" op)
        fun _ _ _ => True) ⟨⟨[⟨"correct horse", false⟩]⟩, []⟩ _ :=
    .next (l := .spawn ⟨.changePassword sampleRoot (some "guess") "another horse", 1⟩) .start
      (show _ ∧ _ from ⟨rfl, by rintro current ⟨⟩; decide⟩) rfl
  have hasked := Reaches.next (l := .answer 0 ⟨.mustChange, .ok false⟩) hbegin
    (by intro t _; trivial) rfl
  exact ⟨_, hasked, rfl, root_kept plainBcrypt _ "correct horse" rfl _ hasked⟩

end Ppb.Root
