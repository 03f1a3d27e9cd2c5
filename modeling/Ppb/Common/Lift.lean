import Ppb.Common.SharedStore

/-!
# Programs inside larger ones

A handler of one part of a server calls programs written for another part, whose questions are
among its own. `p.lift f g` is `p` with every question `q` asked as `f q`; `g` reads its answer.
-/

namespace Ppb.Prog

variable {Q Q' : Type} {A : Q → Type} {A' : Q' → Type} {ε α β : Type}
  {f : Q → Q'} {g : ∀ q, A' (f q) → A q}

/-- `p` with its questions asked through `f`. -/
def lift (f : Q → Q') (g : ∀ q, A' (f q) → A q) : Prog Q A ε α → Prog Q' A' ε α
  | .done r => .done r
  | .ask q next => .ask (f q) fun a => (next (g q a)).lift f g

theorem lift_bind (p : Prog Q A ε α) (k : α → Prog Q A ε β) :
    (p >>= k).lift f g = p.lift f g >>= fun a => (k a).lift f g := by
  show (p.bind k).lift f g = (p.lift f g).bind fun a => (k a).lift f g
  induction p with
  | done r => cases r <;> rfl
  | ask q next ih =>
    simp only [bind, lift]
    congr 1
    funext a
    exact ih (g q a)

theorem only_lift {C : Q' → Prop} {p : Prog Q A ε α} (hp : p.Only fun q => C (f q)) :
    (p.lift f g).Only C := by
  induction p with
  | done r => trivial
  | ask q next ih => exact ⟨hp.1, fun a => ih _ (hp.2 _)⟩

/-- What holds on every path of `p` holds where its questions are asked through `f`, for the events
    that `read` finds in the history. -/
theorem wp_lift {ok : History Q A → Event Q A → Prop} {R : History Q A → Except ε α → Prop}
    (read : Event Q' A' → Option (Event Q A)) (hread : ∀ q a, read ⟨f q, a⟩ = some ⟨q, g q a⟩)
    {p : Prog Q A ε α} {h : History Q' A'} (hp : wp ok p (h.filterMap read) R) :
    wp (fun h e => ∀ e₀, read e = some e₀ → ok (h.filterMap read) e₀) (p.lift f g) h
      fun h' r => R (h'.filterMap read) r := by
  induction p generalizing h with
  | done r => exact hp
  | ask q next ih =>
    intro a
    have hnext := hp (g q a)
    refine ⟨fun e₀ he₀ => ?_, ih (g q a) ?_⟩
    · rw [hread] at he₀
      exact Option.some.inj he₀ ▸ hnext.1
    · rw [List.filterMap_append, List.filterMap_cons, hread]
      exact hnext.2

end Ppb.Prog
