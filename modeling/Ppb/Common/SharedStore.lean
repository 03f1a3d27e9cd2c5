import Ppb.Common.Prog
import Ppb.Common.Trace

/-!
# Programs over a shared store

Several programs work on one store, such as the tables of a database. A single
question is answered at once: `exec s e` is the store after the event `e`, or
`none` if the store `s` does not give that answer. Between two questions of one
program the others may have changed the store.

* `execAll`: a whole history, for a program that runs alone.
* `Safe does I R G p s P`: rely and guarantee. If the others change the store only
  within `R`, then every event of `p` keeps the invariant `I` and is within `G`, and
  `p` ends in `P`. `safe_bind`, `safe_ask` are its rules.
* `Pool`: any number of programs in progress; `Pool.safe` is the induction over a
  run, done once. `Pool.happened`: what a program is past has happened;
  `Pool.passed_once`: what can happen only once.
* `Alone`: operations that run one after the other; `Alone.post` is its rule.
-/

namespace Ppb.Shared

open Prog Trace

variable {Q : Type} {A : Q → Type} {S Op ε α β : Type}

/-- The store after all events of a history. -/
def execAll (exec : S → Event Q A → Option S) : S → History Q A → Option S
  | s, [] => some s
  | s, e :: es => (exec s e).bind fun s' => execAll exec s' es

theorem execAll_append {exec : S → Event Q A → Option S} {es fs : History Q A} :
    ∀ {s : S}, execAll exec s (es ++ fs) = (execAll exec s es).bind fun s' => execAll exec s' fs := by
  induction es with
  | nil => exact rfl
  | cons e es ih =>
    intro s
    simp only [List.cons_append, execAll, Option.bind_assoc]
    congr 1
    funext s'
    exact ih

/-! ## Rely and guarantee -/

/-- `does` is what one event does to the store, `I` the invariant, `R` what others
    may do between two events, `G` what the program itself may do. -/
def Safe (does : S → Event Q A → S → Prop) (I : S → Prop) (R G : S → S → Prop) :
    Prog Q A ε α → S → (S → Except ε α → Prop) → Prop
  | .done r, s, P => ∀ s₁, R s s₁ → I s₁ → P s₁ r
  | .ask q next, s, P => ∀ s₁, R s s₁ → I s₁ → ∀ a s₂, does s₁ ⟨q, a⟩ s₂ →
      (I s₂ ∧ G s₁ s₂) ∧ Safe does I R G (next a) s₂ P

variable {does : S → Event Q A → S → Prop} {I : S → Prop} {R G : S → S → Prop} {s s' : S}
  {p : Prog Q A ε α} {P P' : S → Except ε α → Prop}

theorem safe_pure {a : α} (h : ∀ s₁, R s s₁ → I s₁ → P s₁ (.ok a)) :
    Safe does I R G (pure a) s P := h

theorem safe_fail {e : ε} (h : ∀ s₁, R s s₁ → I s₁ → P s₁ (.error e)) :
    Safe does I R G (fail e) s P := h

/-- A question at the front of a program. -/
theorem safe_ask {q : Q} {k : A q → Prog Q A ε β} {P : S → Except ε β → Prop}
    (h : ∀ s₁, R s s₁ → I s₁ → ∀ a s₂, does s₁ ⟨q, a⟩ s₂ →
      (I s₂ ∧ G s₁ s₂) ∧ Safe does I R G (k a) s₂ P) :
    Safe does I R G (query q >>= k) s P := h

theorem safe_mono (hp : Safe does I R G p s P) (hP : ∀ s r, P s r → P' s r) :
    Safe does I R G p s P' := by
  induction p generalizing s with
  | done r => exact fun s₁ hR hI => hP s₁ r (hp s₁ hR hI)
  | ask q next ih =>
    intro s₁ hR hI a s₂ hstep
    exact ⟨(hp s₁ hR hI a s₂ hstep).1, ih a (hp s₁ hR hI a s₂ hstep).2⟩

/-- What others do does not matter. -/
theorem safe_stable (htrans : ∀ {a b c}, R a b → R b c → R a c) (hp : Safe does I R G p s P)
    (hR : R s s') : Safe does I R G p s' P := by
  cases p with
  | done r => exact fun s₁ hR' hI => hp s₁ (htrans hR hR') hI
  | ask q next => exact fun s₁ hR' hI => hp s₁ (htrans hR hR') hI

/-- In sequence: `P` is what the first part leaves to the second. -/
theorem safe_bind {k : α → Prog Q A ε β} {P' : S → Except ε β → Prop}
    (hrefl : ∀ s, R s s) (hI : I s) (hp : Safe does I R G p s P)
    (hok : ∀ s₁ a, I s₁ → P s₁ (.ok a) → Safe does I R G (k a) s₁ P')
    (herr : ∀ s₁ e, I s₁ → P s₁ (.error e) → P' s₁ (.error e)) :
    Safe does I R G (p >>= k) s P' := by
  show Safe does I R G (p.bind k) s P'
  induction p generalizing s with
  | done r =>
    cases r with
    | ok a => exact hok s a hI (hp s (hrefl s) hI)
    | error e => exact fun s₁ hR hI₁ => herr s₁ e hI₁ (hp s₁ hR hI₁)
  | ask q next ih =>
    intro s₁ hR hI₁ a s₂ hstep
    obtain ⟨hev, hrest⟩ := hp s₁ hR hI₁ a s₂ hstep
    exact ⟨hev, ih a hev.1 hrest⟩

/-- What a program and the others do together is something others may do. -/
theorem safe_since (hrefl : ∀ s, R s s) (htrans : ∀ {a b c}, R a b → R b c → R a c)
    (hG : ∀ {a b}, G a b → R a b) (hp : Safe does I R G p s P) :
    Safe does I R G p s fun s' r => R s s' ∧ P s' r := by
  suffices hfrom : ∀ s₀, R s₀ s → Safe does I R G p s fun s' r => R s₀ s' ∧ P s' r from
    hfrom s (hrefl s)
  induction p generalizing s with
  | done r =>
    intro s₀ h₀ s₁ hR hI
    exact ⟨htrans h₀ hR, hp s₁ hR hI⟩
  | ask q next ih =>
    intro s₀ h₀ s₁ hR hI a s₂ hdoes
    obtain ⟨hev, hrest⟩ := hp s₁ hR hI a s₂ hdoes
    exact ⟨hev, ih a hrest s₀ (htrans (htrans h₀ hR) (hG hev.2))⟩

theorem safe_attempt {ε' : Type} {P : S → Except ε' (Except ε α) → Prop}
    (hp : Safe does I R G p s fun s' r => P s' (.ok r)) :
    Safe does I R G (p.attempt : Prog Q A ε' (Except ε α)) s P := by
  induction p generalizing s with
  | done r => exact hp
  | ask q next ih =>
    intro s₁ hR hI a s₂ hdoes
    obtain ⟨hev, hrest⟩ := hp s₁ hR hI a s₂ hdoes
    exact ⟨hev, ih a hrest⟩

theorem safe_failIf_bind {c : Prop} [Decidable c] {e : ε} {k : Unit → Prog Q A ε β}
    {P : S → Except ε β → Prop} (hc : c → ∀ s₁, R s s₁ → I s₁ → P s₁ (.error e))
    (hn : ¬ c → Safe does I R G (k ()) s P) : Safe does I R G (failIf c e >>= k) s P := by
  unfold failIf
  split_ifs with h
  · exact safe_fail (hc h)
  · exact hn h

theorem safe_ofOption_bind {e : ε} {o : Option α} {k : α → Prog Q A ε β}
    {P : S → Except ε β → Prop} (hnone : o = none → ∀ s₁, R s s₁ → I s₁ → P s₁ (.error e))
    (hsome : ∀ a, o = some a → Safe does I R G (k a) s P) :
    Safe does I R G (ofOption e o >>= k) s P := by
  cases o with
  | none => exact safe_fail (hnone rfl)
  | some a => exact hsome a rfl

/-- A program all of whose questions keep the invariant, whatever the answers. -/
theorem safe_of_wp {C : Q → Prop} {h : History Q A} {W : History Q A → Except ε α → Prop}
    (hp : wp (fun _ e => C e.1) p h W)
    (hC : ∀ s e s', C e.1 → I s → does s e s' → I s' ∧ G s s') :
    Safe does I R G p s fun s' _ => I s' := by
  induction p generalizing s h with
  | done r => exact fun _ _ hI => hI
  | ask q next ih =>
    intro s₁ _ hI a s₂ hdoes
    exact ⟨hC s₁ ⟨q, a⟩ s₂ (hp a).1 hI hdoes, ih a (hp a).2⟩

/-- A program with questions of one kind, and a fact that all of them and the others keep. -/
theorem safe_of_only {C : Q → Prop} {K : S → Prop} (hp : p.Only C) (hK : K s)
    (hstable : ∀ {a b}, K a → R a b → K b)
    (hC : ∀ s e s', C e.1 → K s → I s → does s e s' → (I s' ∧ G s s') ∧ K s') :
    Safe does I R G p s fun s' _ => K s' := by
  induction p generalizing s with
  | done r => exact fun s₁ hR _ => hstable hK hR
  | ask q next ih =>
    intro s₁ hR hI a s₂ hdoes
    obtain ⟨hev, hK₂⟩ := hC s₁ ⟨q, a⟩ s₂ hp.1 (hstable hK hR) hI hdoes
    exact ⟨hev, ih a (hp.2 a) hK₂⟩

/-- `Safe` for a program whose first question finds the store as it is now. -/
def SafeNow (does : S → Event Q A → S → Prop) (I : S → Prop) (R G : S → S → Prop) :
    Prog Q A ε α → S → (S → Except ε α → Prop) → Prop
  | .done r, s, P => ∀ s₁, R s s₁ → I s₁ → P s₁ r
  | .ask q next, s, P => ∀ a s₂, does s ⟨q, a⟩ s₂ → (I s₂ ∧ G s s₂) ∧ Safe does I R G (next a) s₂ P

theorem safeNow_ask {q : Q} {k : A q → Prog Q A ε β} {P : S → Except ε β → Prop}
    (h : ∀ a s₂, does s ⟨q, a⟩ s₂ → (I s₂ ∧ G s s₂) ∧ Safe does I R G (k a) s₂ P) :
    SafeNow does I R G (query q >>= k) s P := h

/-! ## Pools -/

/-- The store and the programs in progress, each with the operation it is for. -/
structure Pool (Q : Type) (A : Q → Type) (S Op ε α : Type) where
  store : S
  threads : List (Op × Prog Q A ε α)

/-- A step of a pool: a new operation, or the answer to a program's question. -/
inductive Label (Q : Type) (A : Q → Type) (Op : Type) where
  | spawn (op : Op)
  | answer (i : ℕ) (e : Event Q A)

variable [DecidableEq Q] {exec : S → Event Q A → Option S} {program : Op → Prog Q A ε α}
  {O : S → Op → Prop} {E : Op → S → Event Q A → Prop}

/-- One step of a pool. -/
def Pool.step (exec : S → Event Q A → Option S) (program : Op → Prog Q A ε α)
    (p : Pool Q A S Op ε α) : Label Q A Op → Option (Pool Q A S Op ε α)
  | .spawn op => some { p with threads := p.threads ++ [(op, program op)] }
  | .answer i e => do
    let thread ← p.threads[i]?
    let rest ← thread.2.follow [e]
    let store ← exec p.store e
    return { store := store, threads := p.threads.set i (thread.1, rest) }

/-- A condition on the operations and on the events of each. -/
def Pool.Ok (O : S → Op → Prop) (E : Op → S → Event Q A → Prop) (p : Pool Q A S Op ε α) :
    Label Q A Op → Prop
  | .spawn op => O p.store op
  | .answer i e => ∀ t ∈ p.threads[i]?, E t.1 p.store e

instance Pool.Ok.instDecidable [∀ s op, Decidable (O s op)]
    [∀ op s e, Decidable (E op s e)] (p : Pool Q A S Op ε α) :
    ∀ l, Decidable (p.Ok O E l)
  | .spawn op => inferInstanceAs (Decidable (O p.store op))
  | .answer i e => inferInstanceAs (Decidable (∀ t ∈ p.threads[i]?, E t.1 p.store e))

theorem Pool.step_answer {p p' : Pool Q A S Op ε α} {i : ℕ} {e : Event Q A}
    (h : p.step exec program (.answer i e) = some p') :
    ∃ op rest rest', p.threads[i]? = some (op, rest) ∧ rest.follow [e] = some rest' ∧
      exec p.store e = some p'.store ∧ p'.threads = p.threads.set i (op, rest') := by
  simp only [Pool.step, Option.bind_eq_bind, Option.bind_eq_some_iff] at h
  obtain ⟨⟨op, rest⟩, hi, rest', hrest, store, hstore, heq⟩ := h
  obtain rfl := Option.some.inj heq
  exact ⟨op, rest, rest', hi, hrest, hstore, rfl⟩

/-- The events of a safe program are safe. -/
theorem Safe.follow {e : Event Q A} {p' : Prog Q A ε α} (hp : Safe does I R G p s P)
    (hR : R s s) (hI : I s) (hf : p.follow [e] = some p') (hstep : does s e s') :
    (I s' ∧ G s s') ∧ Safe does I R G p' s' P := by
  obtain ⟨next, rfl, rfl⟩ := follow_one hf
  exact hp s hR hI e.2 s' hstep

/-- The induction over the runs of a pool: if every operation is safe when it
    starts, and what each may do is what the others allow for, then the invariant
    holds in every state and what is in progress is still safe. -/
theorem Pool.safe {W : Op → S → Except ε α → Prop} {G : Op → S → S → Prop}
    (hrefl : ∀ s, R s s) (htrans : ∀ {a b c}, R a b → R b c → R a c)
    (hguar : ∀ op {a b}, G op a b → R a b)
    (hspawn : ∀ s op, I s → O s op → Safe (fun s e s' => exec s e = some s' ∧ E op s e)
      I R (G op) (program op) s (W op))
    {p₀ p : Pool Q A S Op ε α} (hstart : I p₀.store) (hempty : p₀.threads = [])
    (hrun : Reaches (Pool.step exec program) (Pool.Ok O E) p₀ p) :
    I p.store ∧ ∀ t ∈ p.threads, Safe (fun s e s' => exec s e = some s' ∧ E t.1 s e)
      I R (G t.1) t.2 p.store (W t.1) := by
  refine hrun.invariant (I := fun p : Pool Q A S Op ε α => I p.store ∧ ∀ t ∈ p.threads,
    Safe (fun s e s' => exec s e = some s' ∧ E t.1 s e) I R (G t.1) t.2 p.store
      (W t.1)) ?_ ?_
  · exact ⟨hstart, by simp [hempty]⟩
  · rintro p l p' ⟨hI, hthreads⟩ hok hstep
    cases l with
    | spawn op =>
      obtain rfl := Option.some.inj hstep
      refine ⟨hI, fun t ht => ?_⟩
      rcases List.mem_append.mp ht with ht | ht
      · exact hthreads t ht
      · rw [List.mem_singleton.mp ht]
        exact hspawn p.store op hI hok
    | answer i e =>
      obtain ⟨op, rest, rest', hi, hfollow, hexec, hset⟩ := Pool.step_answer hstep
      have hmem : (op, rest) ∈ p.threads := List.mem_of_getElem? hi
      obtain ⟨⟨hI', hG⟩, hrest⟩ :=
        (hthreads _ hmem).follow (hrefl _) hI hfollow ⟨hexec, hok _ hi⟩
      refine ⟨hI', fun t ht => ?_⟩
      rw [hset] at ht
      rcases List.mem_or_eq_of_mem_set ht with ht | rfl
      · exact safe_stable htrans (hthreads t ht) (hguar op hG)
      · exact hrest

/-- The programs in progress are what is left of those of their operations. -/
theorem Pool.each {P : Op → (q : Q) → (A q → Prog Q A ε α) → Prop}
    {ok : Pool Q A S Op ε α → Label Q A Op → Prop} (hP : ∀ op, (program op).Each (P op))
    {p₀ p : Pool Q A S Op ε α} (hempty : p₀.threads = [])
    (hrun : Reaches (Pool.step exec program) ok p₀ p) : ∀ t ∈ p.threads, t.2.Each (P t.1) := by
  refine hrun.invariant (I := fun p : Pool Q A S Op ε α => ∀ t ∈ p.threads, t.2.Each (P t.1)) ?_ ?_
  · simp [hempty]
  · rintro p l p' hthreads - hstep t ht
    cases l with
    | spawn op =>
      obtain rfl := Option.some.inj hstep
      rcases List.mem_append.mp ht with ht | ht
      · exact hthreads t ht
      · rw [List.mem_singleton.mp ht]
        exact hP op
    | answer i e =>
      obtain ⟨op, rest, rest', hi, hfollow, -, hset⟩ := Pool.step_answer hstep
      rw [hset] at ht
      rcases List.mem_or_eq_of_mem_set ht with ht | rfl
      · exact hthreads t ht
      · obtain ⟨next, rfl, rfl⟩ := follow_one hfollow
        exact (hthreads _ (List.mem_of_getElem? hi)).2 e.2

/-- What the programs ask may be assumed of every event. -/
theorem Pool.asks {D : Op → Q → Prop} (hD : ∀ op, (program op).Only (D op))
    {p₀ p : Pool Q A S Op ε α} (hempty : p₀.threads = [])
    (hrun : Reaches (Pool.step exec program) (Pool.Ok O E) p₀ p) :
    Reaches (Pool.step exec program) (Pool.Ok O fun op s e => E op s e ∧ D op e.1) p₀ p := by
  induction hrun with
  | start => exact .start
  | @next p p' l hreach hok hstep ih =>
    refine ih.next ?_ hstep
    cases l with
    | spawn op => exact hok
    | answer i e =>
      intro t ht
      obtain ⟨op, rest, rest', hi, hfollow, -⟩ := Pool.step_answer hstep
      obtain rfl : (op, rest) = t := Option.some.inj (hi.symm.trans ht)
      have heach := Pool.each (P := fun op q _ => D op q)
        (fun op => each_of_only (hD op) fun _ _ h => h) hempty hreach _ (List.mem_of_getElem? hi)
      obtain ⟨next, rfl, -⟩ := follow_one hfollow
      exact ⟨hok _ hi, heach.1⟩

/-- An invariant that every question of every operation keeps, whatever came before. -/
theorem Pool.invariant {C : Op → Q → Prop} {O : Op → Prop}
    {P : Op → History Q A → Except ε α → Prop}
    (hwp : ∀ op, wp (fun _ e => C op e.1) (program op) [] (P op))
    (hC : ∀ s op e s', O op → C op e.1 → E op s e → I s → exec s e = some s' → I s')
    {p₀ p : Pool Q A S Op ε α} (hstart : I p₀.store) (hempty : p₀.threads = [])
    (hrun : Reaches (Pool.step exec program) (Pool.Ok (fun _ => O) E) p₀ p) : I p.store := by
  refine (Pool.safe (I := I) (R := fun _ _ => True) (W := fun _ s _ => I s)
    (G := fun _ _ _ => True) (fun _ => trivial) (fun _ _ => trivial) (fun _ _ _ _ => trivial)
    ?_ hstart hempty hrun).1
  intro s op _ hop
  refine safe_of_wp (hwp op) fun s e s' hasks hI hdoes => ⟨?_, trivial⟩
  exact hC s op e s' hop hasks hdoes.2 hI hdoes.1

/-- A step of an operation is within its guarantee. -/
theorem Pool.guarantee {W : Op → S → Except ε α → Prop} {G : Op → S → S → Prop}
    (hrefl : ∀ s, R s s) {p p' : Pool Q A S Op ε α} (hI : I p.store)
    (hsafe : ∀ t ∈ p.threads, Safe (fun s e s' => exec s e = some s' ∧ E t.1 s e)
      I R (G t.1) t.2 p.store (W t.1))
    {i : ℕ} {e : Event Q A} {op : Op} {rest : Prog Q A ε α} (hi : p.threads[i]? = some (op, rest))
    (hok : E op p.store e) (hstep : p.step exec program (.answer i e) = some p') :
    G op p.store p'.store := by
  obtain ⟨op', rest', rest'', hi', hfollow, hexec, -⟩ := Pool.step_answer hstep
  obtain ⟨rfl, rfl⟩ := Prod.mk.inj (Option.some.inj (hi.symm.trans hi'))
  exact ((hsafe _ (List.mem_of_getElem? hi)).follow (hrefl _) hI hfollow ⟨hexec, hok⟩).1.2

/-! ### What has happened, and what can happen only once -/

section Spend

variable {κ : Type} {key : Op → Option κ} {F : Op → Prog Q A ε α → Prop}
  {C : Op → Event Q A → Prop} {U : S → κ → Prop}

/-- The program number `i` is for the key `k` and is not in `F` any more. -/
def Pool.Passed (key : Op → Option κ) (F : Op → Prog Q A ε α → Prop) (p : Pool Q A S Op ε α) (k : κ)
    (i : ℕ) : Prop :=
  ∃ t : Op × Prog Q A ε α, p.threads[i]? = some t ∧ key t.1 = some k ∧ ¬ F t.1 t.2

/-- The program number `i` is for the key `k` and is past its event `C`. -/
def Pool.Past (key : Op → Option κ) (C : Op → Event Q A → Prop) (p : Pool Q A S Op ε α) (k : κ)
    (i : ℕ) : Prop :=
  ∃ t : Op × Prog Q A ε α, p.threads[i]? = some t ∧ key t.1 = some k ∧ ¬ t.2.Owes (C t.1)

/-- A new program is still in `F`. -/
theorem Pool.passed_spawn (hF : ∀ op k, key op = some k → F op (program op))
    {p p' : Pool Q A S Op ε α} {op : Op} (hstep : p.step exec program (.spawn op) = some p') {k : κ}
    {i : ℕ} (hi : p'.Passed key F k i) : p.Passed key F k i := by
  obtain ⟨t, ht, hk, hno⟩ := hi
  obtain rfl := Option.some.inj hstep
  rcases lt_or_ge i p.threads.length with hlt | hge
  · rw [List.getElem?_append_left hlt] at ht
    exact ⟨t, ht, hk, hno⟩
  · rw [List.getElem?_append_right hge] at ht
    obtain rfl := List.mem_singleton.mp (List.mem_of_getElem? ht)
    exact absurd (hF op k hk) hno

/-- A program leaves `F` by an event of the kind `C` only. -/
theorem Pool.passed_answer
    (hC : ∀ op rest e rest', F op rest → rest.follow [e] = some rest' → C op e ∨ F op rest')
    {p p' : Pool Q A S Op ε α} {n : ℕ} {e : Event Q A}
    (hstep : p.step exec program (.answer n e) = some p') {k : κ} {i : ℕ}
    (hi : p'.Passed key F k i) :
    p.Passed key F k i ∨ i = n ∧ ∃ t, p.threads[n]? = some t ∧ key t.1 = some k ∧ C t.1 e := by
  obtain ⟨t, ht, hk, hno⟩ := hi
  obtain ⟨op, rest, rest', hn, hfollow, -, hset⟩ := Pool.step_answer hstep
  rw [hset] at ht
  by_cases hin : n = i
  · subst hin
    rw [List.getElem?_set_self (List.getElem?_eq_some_iff.mp hn).1] at ht
    obtain rfl := Option.some.inj ht
    by_cases hrest : F op rest
    · exact .inr ⟨rfl, _, hn, hk, (hC _ _ _ _ hrest hfollow).resolve_right hno⟩
    · exact .inl ⟨_, hn, hk, hrest⟩
  · rw [List.getElem?_set_ne hin] at ht
    exact .inl ⟨t, ht, hk, hno⟩

/-- What a program is past has happened at some step of the run. -/
theorem Pool.happened {ok : Pool Q A S Op ε α → Label Q A Op → Prop}
    (hF : ∀ op k, key op = some k → F op (program op))
    (hC : ∀ op rest e rest', F op rest → rest.follow [e] = some rest' → C op e ∨ F op rest')
    {p₀ p : Pool Q A S Op ε α} (hempty : p₀.threads = [])
    (hrun : Reaches (Pool.step exec program) ok p₀ p) {i : ℕ} {k : κ} (hi : p.Passed key F k i) :
    ∃ p₁ e p₂ t, Reaches (Pool.step exec program) ok p₀ p₁ ∧ p₁.threads[i]? = some t ∧
      key t.1 = some k ∧ C t.1 e ∧ ok p₁ (.answer i e) ∧
      p₁.step exec program (.answer i e) = some p₂ ∧ Reaches (Pool.step exec program) ok p₂ p := by
  induction hrun with
  | start =>
    obtain ⟨t, ht, -⟩ := hi
    simp [hempty] at ht
  | @next p p' l hreach hok hstep ih =>
    cases l with
    | spawn op =>
      obtain ⟨p₁, e, p₂, t, h₁, ht, hk, he, hok₁, hstep₁, h₂⟩ := ih (Pool.passed_spawn hF hstep hi)
      exact ⟨p₁, e, p₂, t, h₁, ht, hk, he, hok₁, hstep₁, h₂.next hok hstep⟩
    | answer n e =>
      rcases Pool.passed_answer hC hstep hi with hi | ⟨rfl, t, ht, hk, he⟩
      · obtain ⟨p₁, e, p₂, t, h₁, ht, hk, he, hok₁, hstep₁, h₂⟩ := ih hi
        exact ⟨p₁, e, p₂, t, h₁, ht, hk, he, hok₁, hstep₁, h₂.next hok hstep⟩
      · exact ⟨p, e, p', t, hreach, ht, hk, he, hok, hstep, .start⟩

/-- If the event of an operation finds its key unspent and leaves it spent, and what
    is spent stays so, then for each key at most one operation gets past its event. -/
theorem Pool.passed_once
    (hkeeps : ∀ s op e s', I s → E op s e → exec s e = some s' →
      I s' ∧ ∀ k, U s k → U s' k)
    (hspends : ∀ s op e s' k, I s → E op s e → exec s e = some s' → C op e → key op = some k →
      ¬ U s k ∧ U s' k)
    (hF : ∀ op k, key op = some k → F op (program op))
    (hC : ∀ op rest e rest', F op rest → rest.follow [e] = some rest' → C op e ∨ F op rest')
    {p₀ p : Pool Q A S Op ε α} (hstart : I p₀.store) (hempty : p₀.threads = [])
    (hrun : Reaches (Pool.step exec program) (Pool.Ok O E) p₀ p) {i j : ℕ} {k : κ}
    (hi : p.Passed key F k i) (hj : p.Passed key F k j) : i = j := by
  suffices hinv : I p.store ∧ (∀ i k, p.Passed key F k i → U p.store k) ∧
      ∀ i j k, p.Passed key F k i → p.Passed key F k j → i = j from hinv.2.2 i j k hi hj
  clear hi hj
  refine hrun.invariant (I := fun p => I p.store ∧ (∀ i k, p.Passed key F k i → U p.store k) ∧
    ∀ i j k, p.Passed key F k i → p.Passed key F k j → i = j) ?_ ?_
  · have hnone : ∀ i k, ¬ p₀.Passed key F k i := by
      rintro i k ⟨t, ht, -⟩
      simp [hempty] at ht
    exact ⟨hstart, fun i k h => absurd h (hnone i k), fun i j k h => absurd h (hnone i k)⟩
  · rintro p l p' ⟨hI, hspent, honce⟩ hok hstep
    cases l with
    | spawn op =>
      have hback : ∀ i k, p'.Passed key F k i → p.Passed key F k i := fun i k =>
        Pool.passed_spawn hF hstep
      have hstore : p'.store = p.store := by rw [← Option.some.inj hstep]
      rw [hstore]
      exact ⟨hI, fun i k h => hspent i k (hback i k h),
        fun i j k hi hj => honce i j k (hback i k hi) (hback j k hj)⟩
    | answer n e =>
      obtain ⟨op, rest, rest', hn, -, hexec, -⟩ := Pool.step_answer hstep
      have hE : E op p.store e := hok _ hn
      obtain ⟨hI', hstays⟩ := hkeeps _ _ _ _ hI hE hexec
      have hevent : ∀ k, (∃ t, p.threads[n]? = some t ∧ key t.1 = some k ∧ C t.1 e) →
          ¬ U p.store k ∧ U p'.store k := by
        rintro k ⟨t, ht, hk, hC⟩
        obtain rfl := Option.some.inj (hn.symm.trans ht)
        exact hspends _ _ _ _ k hI hE hexec hC hk
      refine ⟨hI', fun i k hi => ?_, fun i j k hi hj => ?_⟩
      · rcases Pool.passed_answer hC hstep hi with hi | ⟨-, hi⟩
        · exact hstays k (hspent i k hi)
        · exact (hevent k hi).2
      · -- two that move at once are one; one that moves finds the key unspent
        rcases Pool.passed_answer hC hstep hi with hi | ⟨rfl, hi⟩ <;>
          rcases Pool.passed_answer hC hstep hj with hj | ⟨rfl, hj⟩
        · exact honce i j k hi hj
        · exact absurd (hspent i k hi) (hevent k hj).1
        · exact absurd (hspent j k hj) (hevent k hi).1
        · rfl

/-- `Pool.passed_once` for programs that owe an event before they succeed. -/
theorem Pool.at_most_once
    (hkeeps : ∀ s op e s', I s → E op s e → exec s e = some s' →
      I s' ∧ ∀ k, U s k → U s' k)
    (hspends : ∀ s op e s' k, I s → E op s e → exec s e = some s' → C op e → key op = some k →
      ¬ U s k ∧ U s' k)
    (howes : ∀ op k, key op = some k → (program op).Owes (C op))
    {p₀ p : Pool Q A S Op ε α} (hstart : I p₀.store) (hempty : p₀.threads = [])
    (hrun : Reaches (Pool.step exec program) (Pool.Ok O E) p₀ p) {i j : ℕ} {k : κ}
    (hi : p.Past key C k i) (hj : p.Past key C k j) : i = j :=
  Pool.passed_once (F := fun op rest => rest.Owes (C op)) hkeeps hspends howes
    (fun _ _ _ _ hrest hf => hrest.follow hf) hstart hempty hrun hi hj

end Spend

/-! ## One operation after the other -/

variable {okEvent : S → Event Q A → Prop}

/-- `op` runs alone: `h` are its questions with their answers, to its end. -/
def Alone (exec : S → Event Q A → Option S) (program : Op → Prog Q A ε α) (s : S)
    (l : Op × History Q A) : Option S :=
  match (program l.1).follow l.2 with
  | some (.done _) => execAll exec s l.2
  | _ => none

/-- Every event of a history meets `okEvent` in the store it finds. -/
def OkAll (exec : S → Event Q A → Option S) (okEvent : S → Event Q A → Prop) :
    S → History Q A → Prop
  | _, [] => True
  | s, e :: es => okEvent s e ∧ ∀ s', exec s e = some s' → OkAll exec okEvent s' es

omit [DecidableEq Q] in
theorem okAll_of_forall (hok : ∀ s e, okEvent s e) : ∀ s h, OkAll exec okEvent s h
  | _, [] => trivial
  | s, e :: es => ⟨hok s e, fun s' _ => okAll_of_forall hok s' es⟩

instance OkAll.instDecidable [∀ s e, Decidable (okEvent s e)] :
    ∀ s h, Decidable (OkAll exec okEvent s h)
  | _, [] => .isTrue trivial
  | s, e :: es =>
    have : Decidable (∀ s', exec s e = some s' → OkAll exec okEvent s' es) :=
      match hexec : exec s e with
      | none => .isTrue (by simp)
      | some s' => @decidable_of_iff _ (OkAll exec okEvent s' es) (by simp)
          (OkAll.instDecidable s' es)
    inferInstanceAs (Decidable (okEvent s e ∧ ∀ s', exec s e = some s' → OkAll exec okEvent s' es))

/-- Nobody else changes the store. -/
theorem Safe.execAll {h : History Q A} {r : Except ε α}
    (hp : Safe (fun s e s' => exec s e = some s' ∧ okEvent s e) I Eq G p s P) (hI : I s)
    (hf : p.follow h = some (.done r)) (hok : OkAll exec okEvent s h)
    (hs : execAll exec s h = some s') : P s' r := by
  induction h generalizing p s with
  | nil =>
    obtain rfl := Option.some.inj hs
    have hdone : p = .done r := by cases p <;> exact Option.some.inj hf
    subst hdone
    exact hp s rfl hI
  | cons e es ih =>
    obtain ⟨s₁, h1, h2⟩ := Option.bind_eq_some_iff.mp hs
    rw [show e :: es = [e] ++ es from rfl, follow_append] at hf
    obtain ⟨p', hf1, hf2⟩ := Option.bind_eq_some_iff.mp hf
    obtain ⟨⟨hI₁, -⟩, hrest⟩ := hp.follow rfl hI hf1 ⟨h1, hok.1⟩
    exact ih hrest hI₁ hf2 (hok.2 s₁ h1) h2

/-- What a program that runs alone leaves behind. -/
theorem Alone.post {l : Op × History Q A} {P : S → Except ε α → Prop}
    (hp : Safe (fun s e s' => exec s e = some s' ∧ okEvent s e) I Eq G (program l.1) s P) (hI : I s)
    (hok : OkAll exec okEvent s l.2) (hs : Alone exec program s l = some s') :
    ∃ r, (program l.1).Ends l.2 r ∧ P s' r := by
  unfold Alone at hs
  split at hs
  · rename_i r hf
    refine ⟨r, ?_, hp.execAll hI hf hok hs⟩
    rw [Ends, hf]
    rfl
  · cases hs

end Ppb.Shared
