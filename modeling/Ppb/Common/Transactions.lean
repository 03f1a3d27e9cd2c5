import Ppb.Common.SharedStore

/-!
# Transactions with row locks

Sessions work on one database. Outside a transaction a statement commits at once. In a
transaction its writes wait until the commit, which applies all of them; a rollback drops
them. A statement of a transaction takes the locks of the rows it changes, and may take
the lock of a row it reads; they are held to the end of the transaction, and a statement
that needs a lock somebody else holds waits.

`Tables` says what the writes do. `does db e` is what the statement and answer `e` do if
`db` is committed, `none` if `db` does not give this answer.

* `Owned`: who has written a row holds its lock.
* `others_keep`: isolation. What a session has locked the others leave alone.
* `Sessions.safe`: the induction over a run, with rely and guarantee for each session.
* `safe_quiet`: the rule of a statement that commits nothing.
-/

namespace Ppb.Transactions

open Prog Trace Shared

variable {Q : Type} {A : Q → Type} {D W K ρ Op ε α β : Type}

/-- What the writes `W` do to the data `D`. A row has a key `K`, by which it is locked. -/
structure Tables (D W K ρ : Type) where
  apply : D → W → Option D
  /-- the rows a write changes -/
  touches : W → List K
  row : D → K → ρ
  /-- what no write undoes -/
  Later : D → D → Prop
  refl : ∀ db, Later db db
  trans : ∀ {a b c}, Later a b → Later b c → Later a c
  later : ∀ {db w db'}, apply db w = some db' → Later db db'
  frame : ∀ {db w db' k}, apply db w = some db' → k ∉ touches w → row db' k = row db k

/-- The committed data, who holds which lock, and the writes of the open transactions. -/
structure Store (D W K : Type) where
  db : D
  locks : K → Option ℕ
  pending : ℕ → Option (List W)

/-- No transaction is open. -/
def Store.start (db : D) : Store D W K := ⟨db, fun _ => none, fun _ => none⟩

/-- What a statement does. -/
inductive Does (W K : Type) where
  /-- it reads or has failed -/
  | nothing
  | begin
  /-- `SELECT … FOR UPDATE` -/
  | lock (k : K)
  /-- a write of the open transaction -/
  | write (w : W)
  /-- a write outside a transaction -/
  | autocommit (w : W)
  | commit
  | rollback

/-- The statement commits nothing. -/
def Does.quiet : Does W K → Bool
  | .autocommit _ | .commit => false
  | _ => true

namespace Store

/-- The session takes these locks, if nobody else holds one of them. -/
def take [DecidableEq K] (s : Store D W K) (i : ℕ) (ks : List K) : Option (Store D W K) :=
  if ks.all fun k => s.locks k == none || s.locks k == some i then
    some { s with locks := fun k => if k ∈ ks then some i else s.locks k }
  else none

/-- The transaction of the session ends. -/
def close (s : Store D W K) (i : ℕ) : Store D W K where
  db := s.db
  locks := fun k => if s.locks k = some i then none else s.locks k
  pending := Function.update s.pending i none

end Store

variable (T : Tables D W K ρ) (does : D → Event Q A → Option (Does W K))

/-- A statement of the session `i`. -/
def perform [DecidableEq K] (i : ℕ) (s : Store D W K) : Does W K → Option (Store D W K)
  | .nothing => some s
  | .begin =>
    if s.pending i = none then some { s with pending := Function.update s.pending i (some []) }
    else none
  | .lock k => (s.pending i).bind fun _ => s.take i [k]
  | .write w => (s.pending i).bind fun ws => (s.take i (T.touches w)).map fun s =>
      { s with pending := Function.update s.pending i (some (ws ++ [w])) }
  | .autocommit w =>
    if (T.touches w).all fun k => s.locks k == none then
      (T.apply s.db w).map fun db => { s with db := db }
    else none
  | .commit => (s.pending i).bind fun ws =>
      (ws.foldlM T.apply s.db).map fun db => { s.close i with db := db }
  | .rollback => some (s.close i)

/-- The store after an event of the session `i`. -/
def exec [DecidableEq K] (i : ℕ) (s : Store D W K) (e : Event Q A) : Option (Store D W K) :=
  (does s.db e).bind (perform T i s)

/-! ## Isolation -/

/-- Whoever has written a row in his transaction holds its lock. -/
def Owned (s : Store D W K) : Prop :=
  ∀ i ws, s.pending i = some ws → ∀ w ∈ ws, ∀ k ∈ T.touches w, s.locks k = some i

/-- What others may do between two statements of the session `i`: its transaction is as it was, and
    so are the rows it has locked. -/
def Keeps (i : ℕ) (s s' : Store D W K) : Prop :=
  s'.pending i = s.pending i ∧ T.Later s.db s'.db ∧
    ∀ k, s.locks k = some i → s'.locks k = some i ∧ T.row s'.db k = T.row s.db k

variable {T does} {i j : ℕ} {s s' s'' : Store D W K} {e : Event Q A}

theorem owned_start (db : D) : Owned T (.start db) := nofun

theorem keeps_refl (s : Store D W K) : Keeps T i s s := ⟨rfl, T.refl _, fun _ hk => ⟨hk, rfl⟩⟩

theorem keeps_trans (h : Keeps T i s s') (h' : Keeps T i s' s'') : Keeps T i s s'' := by
  refine ⟨h'.1.trans h.1, T.trans h.2.1 h'.2.1, fun k hk => ?_⟩
  obtain ⟨hk₁, hrow₁⟩ := h.2.2 k hk
  obtain ⟨hk₂, hrow₂⟩ := h'.2.2 k hk₁
  exact ⟨hk₂, hrow₂.trans hrow₁⟩

theorem later_foldlM {ws : List W} : ∀ {db db' : D}, ws.foldlM T.apply db = some db' →
    T.Later db db' := by
  induction ws with
  | nil =>
    intro db db' h
    obtain rfl := Option.some.inj h
    exact T.refl _
  | cons w ws ih =>
    intro db db' h
    obtain ⟨db₁, h₁, h₂⟩ := Option.bind_eq_some_iff.mp h
    exact T.trans (T.later h₁) (ih h₂)

theorem frame_foldlM {ws : List W} {k : K} (hk : ∀ w ∈ ws, k ∉ T.touches w) :
    ∀ {db db' : D}, ws.foldlM T.apply db = some db' → T.row db' k = T.row db k := by
  induction ws with
  | nil =>
    intro db db' h
    obtain rfl := Option.some.inj h
    rfl
  | cons w ws ih =>
    intro db db' h
    obtain ⟨db₁, h₁, h₂⟩ := Option.bind_eq_some_iff.mp h
    rw [List.forall_mem_cons] at hk
    exact (ih hk.2 h₂).trans (T.frame h₁ hk.1)

theorem close_locks {k : K} (hij : i ≠ j) (h : s.locks k = some j) :
    (s.close i).locks k = some j := by
  show (if s.locks k = some i then none else s.locks k) = some j
  rw [h, if_neg fun h' => hij (Option.some.inj h').symm]

theorem close_pending_ne (hij : j ≠ i) : (s.close i).pending j = s.pending j :=
  Function.update_of_ne hij _ _

/-- A statement that ends no transaction but the session's own. -/
theorem owned_close (h : Owned T s) : Owned T (s.close i) := by
  intro j ws hj w hw k hk
  by_cases hij : j = i
  · subst hij
    have hnone : (s.close j).pending j = none := Function.update_self _ _ _
    rw [hnone] at hj
    cases hj
  · rw [close_pending_ne hij] at hj
    exact close_locks (Ne.symm hij) (h j ws hj w hw k hk)

variable [DecidableEq K]

theorem take_spec {ks : List K} (h : s.take i ks = some s') :
    s'.db = s.db ∧ s'.pending = s.pending ∧ (∀ k ∈ ks, s'.locks k = some i) ∧
      (∀ k j, s.locks k = some j → s'.locks k = some j) ∧
      ∀ k j, s'.locks k = some j → s.locks k = some j ∨ j = i := by
  unfold Store.take at h
  split_ifs at h with hfree
  obtain rfl := Option.some.inj h
  refine ⟨rfl, rfl, fun k hk => if_pos hk, fun k j hj => ?_, fun k j hj => ?_⟩
  · show (if k ∈ ks then some i else s.locks k) = some j
    split_ifs with hk
    · have hmine := List.all_eq_true.mp hfree k hk
      rw [hj] at hmine
      have hji : j = i := by simpa using hmine
      rw [hji]
    · exact hj
  · have hj' : (if k ∈ ks then some i else s.locks k) = some j := hj
    split_ifs at hj' with hk
    · exact .inr (Option.some.inj hj').symm
    · exact .inl hj'

theorem owned_perform (h : Owned T s) {d : Does W K} (hd : perform T i s d = some s') :
    Owned T s' := by
  cases d with
  | nothing =>
    obtain rfl := Option.some.inj hd
    exact h
  | begin =>
    simp only [perform] at hd
    split_ifs at hd with hnone
    obtain rfl := Option.some.inj hd
    intro j ws hj w hw k hk
    by_cases hij : j = i
    · subst hij
      have hempty : Function.update s.pending j (some []) j = some ws := hj
      rw [Function.update_self] at hempty
      obtain rfl := Option.some.inj hempty
      cases hw
    · have hold : Function.update s.pending i (some []) j = some ws := hj
      rw [Function.update_of_ne hij] at hold
      exact h j ws hold w hw k hk
  | lock k =>
    obtain ⟨ws, -, htake⟩ := Option.bind_eq_some_iff.mp hd
    obtain ⟨-, hpending, -, hkeeps, -⟩ := take_spec htake
    intro j ws hj w hw k hk
    rw [hpending] at hj
    exact hkeeps k j (h j ws hj w hw k hk)
  | write w =>
    obtain ⟨ws, hws, hd⟩ := Option.bind_eq_some_iff.mp hd
    obtain ⟨s₁, htake, rfl⟩ := Option.map_eq_some_iff.mp hd
    obtain ⟨-, hpending, htaken, hkeeps, -⟩ := take_spec htake
    intro j vs hj v hv k hk
    by_cases hij : j = i
    · subst hij
      have hnew : Function.update s₁.pending j (some (ws ++ [w])) j = some vs := hj
      rw [Function.update_self] at hnew
      obtain rfl := Option.some.inj hnew
      rcases List.mem_append.mp hv with hv | hv
      · exact hkeeps k j (h j ws hws v hv k hk)
      · rw [List.mem_singleton.mp hv] at hk
        exact htaken k hk
    · have hold : Function.update s₁.pending i (some (ws ++ [w])) j = some vs := hj
      rw [Function.update_of_ne hij, hpending] at hold
      exact hkeeps k j (h j vs hold v hv k hk)
  | autocommit w =>
    simp only [perform] at hd
    split_ifs at hd with hfree
    obtain ⟨db, -, rfl⟩ := Option.map_eq_some_iff.mp hd
    exact h
  | commit =>
    obtain ⟨ws, -, hd⟩ := Option.bind_eq_some_iff.mp hd
    obtain ⟨db, -, rfl⟩ := Option.map_eq_some_iff.mp hd
    exact owned_close (s := s) h
  | rollback =>
    obtain rfl := Option.some.inj hd
    exact owned_close h

/-- Isolation: what a session has locked, and its transaction, the others leave alone. -/
theorem perform_keeps (h : Owned T s) (hij : i ≠ j) {d : Does W K}
    (hd : perform T i s d = some s') : Keeps T j s s' := by
  cases d with
  | nothing =>
    obtain rfl := Option.some.inj hd
    exact keeps_refl s
  | begin =>
    simp only [perform] at hd
    split_ifs at hd with hnone
    obtain rfl := Option.some.inj hd
    exact ⟨Function.update_of_ne (Ne.symm hij) _ _, T.refl _, fun _ hk => ⟨hk, rfl⟩⟩
  | lock k =>
    obtain ⟨ws, -, htake⟩ := Option.bind_eq_some_iff.mp hd
    obtain ⟨hdb, hpending, -, hkeeps, -⟩ := take_spec htake
    exact ⟨by rw [hpending], hdb ▸ T.refl _, fun k hk => ⟨hkeeps k j hk, by rw [hdb]⟩⟩
  | write w =>
    obtain ⟨ws, hws, hd⟩ := Option.bind_eq_some_iff.mp hd
    obtain ⟨s₁, htake, rfl⟩ := Option.map_eq_some_iff.mp hd
    obtain ⟨hdb, hpending, -, hkeeps, -⟩ := take_spec htake
    refine ⟨?_, ?_, fun k hk => ⟨hkeeps k j hk, ?_⟩⟩
    · exact (Function.update_of_ne (Ne.symm hij) _ _).trans (by rw [hpending])
    · show T.Later s.db s₁.db
      exact hdb ▸ T.refl _
    · show T.row s₁.db k = T.row s.db k
      rw [hdb]
  | autocommit w =>
    simp only [perform] at hd
    split_ifs at hd with hfree
    obtain ⟨db, hdb, rfl⟩ := Option.map_eq_some_iff.mp hd
    refine ⟨rfl, T.later hdb, fun k hk => ⟨hk, T.frame hdb fun htouch => ?_⟩⟩
    -- a row that is locked is not changed
    have hnone := List.all_eq_true.mp hfree k htouch
    rw [hk] at hnone
    cases hnone
  | commit =>
    obtain ⟨ws, hws, hd⟩ := Option.bind_eq_some_iff.mp hd
    obtain ⟨db, hdb, rfl⟩ := Option.map_eq_some_iff.mp hd
    refine ⟨close_pending_ne (Ne.symm hij), later_foldlM hdb, fun k hk =>
      ⟨close_locks hij hk, frame_foldlM (fun w hw htouch => ?_) hdb⟩⟩
    -- the rows it has written are locked by the session that commits
    rw [h i ws hws w hw k htouch] at hk
    exact hij (Option.some.inj hk)
  | rollback =>
    obtain rfl := Option.some.inj hd
    exact ⟨close_pending_ne (Ne.symm hij), T.refl _, fun k hk => ⟨close_locks hij hk, rfl⟩⟩

theorem others_keep (h : Owned T s) (hij : i ≠ j) (he : exec T does i s e = some s') :
    Keeps T j s s' := by
  obtain ⟨d, -, hd⟩ := Option.bind_eq_some_iff.mp he
  exact perform_keeps h hij hd

/-- Only a commit changes the data. -/
theorem db_of_quiet {d : Does W K} (hquiet : d.quiet = true) (hd : perform T i s d = some s') :
    s'.db = s.db := by
  cases d with
  | nothing =>
    obtain rfl := Option.some.inj hd
    rfl
  | begin =>
    simp only [perform] at hd
    split_ifs at hd
    obtain rfl := Option.some.inj hd
    rfl
  | lock k =>
    obtain ⟨ws, -, htake⟩ := Option.bind_eq_some_iff.mp hd
    exact (take_spec htake).1
  | write w =>
    obtain ⟨ws, -, hd⟩ := Option.bind_eq_some_iff.mp hd
    obtain ⟨s₁, htake, rfl⟩ := Option.map_eq_some_iff.mp hd
    exact (take_spec htake).1
  | rollback =>
    obtain rfl := Option.some.inj hd
    rfl
  | autocommit w => cases hquiet
  | commit => cases hquiet

/-! ## Statements of a program -/

/-- The steps of the session `i`, the invariant, and what a session may rely on. -/
abbrev SafeIn (T : Tables D W K ρ) (does : D → Event Q A → Option (Does W K)) (B : D → Prop) (i : ℕ)
    (G : D → D → Prop) : Prog Q A ε α → Store D W K → (Store D W K → Except ε α → Prop) → Prop :=
  Safe (fun s e s' => exec T does i s e = some s') (fun s => Owned T s ∧ B s.db) (Keeps T i)
    fun s s' => G s.db s'.db

variable {B : D → Prop} {G : D → D → Prop} {F : Store D W K → Prop}
  {P : Store D W K → Except ε β → Prop}

/-- A statement that commits nothing. `F` is what the session knows: the others keep it. -/
theorem safe_quiet {q : Q} {k : A q → Prog Q A ε β}
    (hquiet : ∀ db a d, does db ⟨q, a⟩ = some d → d.quiet = true) (hG : ∀ db, G db db) (hF : F s)
    (hstable : ∀ a b, F a → Keeps T i a b → F b)
    (h : ∀ s₁ a s₂ d, F s₁ → does s₁.db ⟨q, a⟩ = some d → perform T i s₁ d = some s₂ →
      Owned T s₂ ∧ B s₂.db → SafeIn T does B i G (k a) s₂ P) :
    SafeIn T does B i G (query q >>= k) s P := by
  refine safe_ask fun s₁ hkeeps hI a s₂ hexec => ?_
  obtain ⟨d, hd, hperform⟩ := Option.bind_eq_some_iff.mp hexec
  have hdb := db_of_quiet (hquiet _ _ _ hd) hperform
  have hI₂ : Owned T s₂ ∧ B s₂.db := ⟨owned_perform hI.1 hperform, by rw [hdb]; exact hI.2⟩
  refine ⟨⟨hI₂, by rw [hdb]; exact hG _⟩, ?_⟩
  exact h s₁ a s₂ d (hstable _ _ hF hkeeps) hd hperform hI₂

theorem begin_spec (h : perform T i s .begin = some s') :
    s'.pending i = some [] ∧ s'.locks = s.locks ∧ s'.db = s.db := by
  simp only [perform] at h
  split_ifs at h
  obtain rfl := Option.some.inj h
  exact ⟨Function.update_self _ _ _, rfl, rfl⟩

theorem lock_spec {k : K} (h : perform T i s (.lock k) = some s') :
    s'.db = s.db ∧ s'.pending = s.pending ∧ s'.locks k = some i := by
  obtain ⟨ws, -, htake⟩ := Option.bind_eq_some_iff.mp h
  obtain ⟨hdb, hpending, htaken, -⟩ := take_spec htake
  exact ⟨hdb, hpending, htaken k List.mem_cons_self⟩

theorem write_spec {w : W} {ws : List W} (hws : s.pending i = some ws)
    (h : perform T i s (.write w) = some s') : s'.db = s.db ∧ s'.pending i = some (ws ++ [w]) ∧
      ∀ k j, s.locks k = some j → s'.locks k = some j := by
  obtain ⟨ws', hws', h⟩ := Option.bind_eq_some_iff.mp h
  obtain rfl := Option.some.inj (hws.symm.trans hws')
  obtain ⟨s₁, htake, rfl⟩ := Option.map_eq_some_iff.mp h
  obtain ⟨hdb, -, -, hkeeps, -⟩ := take_spec htake
  exact ⟨hdb, Function.update_self _ _ _, hkeeps⟩

theorem autocommit_spec {w : W} (h : perform T i s (.autocommit w) = some s') :
    T.apply s.db w = some s'.db := by
  simp only [perform] at h
  split_ifs at h
  obtain ⟨db, hdb, rfl⟩ := Option.map_eq_some_iff.mp h
  exact hdb

theorem commit_spec {ws : List W} (hws : s.pending i = some ws)
    (h : perform T i s .commit = some s') : ws.foldlM T.apply s.db = some s'.db := by
  obtain ⟨ws', hws', h⟩ := Option.bind_eq_some_iff.mp h
  obtain rfl := Option.some.inj (hws.symm.trans hws')
  obtain ⟨db, hdb, rfl⟩ := Option.map_eq_some_iff.mp h
  exact hdb

/-! ## Sessions -/

section Sessions

variable [DecidableEq Q] {program : Op → Prog Q A ε α}

/-- One step: a new session, or a statement of a session. -/
def step (T : Tables D W K ρ) (does : D → Event Q A → Option (Does W K))
    (program : Op → Prog Q A ε α) (p : Pool Q A (Store D W K) Op ε α) :
    Label Q A Op → Option (Pool Q A (Store D W K) Op ε α)
  | .spawn op => some { p with threads := p.threads ++ [(op, program op)] }
  | .answer i e => p.step (exec T does i) program (.answer i e)

variable {ok : Pool Q A (Store D W K) Op ε α → Label Q A Op → Prop}
  {p p' : Pool Q A (Store D W K) Op ε α} {db₀ : D}

theorem step_answer (h : step T does program p (.answer i e) = some p') :
    ∃ op rest rest', p.threads[i]? = some (op, rest) ∧ rest.follow [e] = some rest' ∧
      exec T does i p.store e = some p'.store ∧ p'.threads = p.threads.set i (op, rest') := by
  have hstep : p.step (exec T does i) program (.answer i e) = some p' := h
  exact Pool.step_answer hstep

/-- What is in progress is what is left of the programs. -/
theorem each_run {C : Op → (q : Q) → (A q → Prog Q A ε α) → Prop}
    (hC : ∀ op, (program op).Each (C op))
    (hrun : Reaches (step T does program) ok ⟨.start db₀, []⟩ p) :
    ∀ t ∈ p.threads, t.2.Each (C t.1) := by
  refine hrun.invariant (I := fun p => ∀ t ∈ p.threads, t.2.Each (C t.1)) nofun ?_
  intro p l p' hthreads _ hstep t ht
  cases l with
  | spawn op =>
    obtain rfl := Option.some.inj hstep
    rcases List.mem_append.mp ht with ht | ht
    · exact hthreads t ht
    · rw [List.mem_singleton.mp ht]
      exact hC op
  | answer i e =>
    obtain ⟨op, rest, rest', hi, hfollow, -, hset⟩ := step_answer hstep
    rw [hset] at ht
    rcases List.mem_or_eq_of_mem_set ht with ht | rfl
    · exact hthreads t ht
    · obtain ⟨next, rfl, rfl⟩ := follow_one hfollow
      exact (hthreads _ (List.mem_of_getElem? hi)).2 e.2

/-- The invariant holds, and what is left of each session is safe. -/
structure SafeRun (T : Tables D W K ρ) (does : D → Event Q A → Option (Does W K)) (B : D → Prop)
    (G : Op → D → D → Prop) (p : Pool Q A (Store D W K) Op ε α) : Prop where
  owned : Owned T p.store
  inv : B p.store.db
  threads : ∀ i op rest, p.threads[i]? = some (op, rest) →
    SafeIn T does B i (G op) rest p.store fun _ _ => True

/-- If every session is safe when it starts, the invariant holds in every state. -/
theorem safe_run {G : Op → D → D → Prop}
    (hprogram : ∀ i op s, Owned T s → B s.db →
      SafeIn T does B i (G op) (program op) s fun _ _ => True) (hB : B db₀)
    (hrun : Reaches (step T does program) ok ⟨.start db₀, []⟩ p) : SafeRun T does B G p := by
  refine hrun.invariant ⟨owned_start _, hB, nofun⟩ ?_
  intro p l p' h _ hstep
  cases l with
  | spawn op =>
    obtain rfl := Option.some.inj hstep
    refine ⟨h.owned, h.inv, fun i op' rest hi => ?_⟩
    rcases lt_or_ge i p.threads.length with hlt | hge
    · rw [List.getElem?_append_left hlt] at hi
      exact h.threads i op' rest hi
    · rw [List.getElem?_append_right hge] at hi
      obtain ⟨rfl, rfl⟩ := Prod.mk.inj (List.mem_singleton.mp (List.mem_of_getElem? hi))
      exact hprogram i _ _ h.owned h.inv
  | answer j e =>
    obtain ⟨op, rest, rest', hj, hfollow, hexec, hset⟩ := step_answer hstep
    have hI : Owned T p.store ∧ B p.store.db := ⟨h.owned, h.inv⟩
    obtain ⟨⟨hI', -⟩, hrest⟩ := (h.threads j op rest hj).follow (keeps_refl _) hI hfollow hexec
    refine ⟨hI'.1, hI'.2, fun i op' rest'' hi => ?_⟩
    rw [hset] at hi
    by_cases hij : j = i
    · subst hij
      rw [List.getElem?_set_self (List.getElem?_eq_some_iff.mp hj).1] at hi
      obtain ⟨rfl, rfl⟩ := Prod.mk.inj (Option.some.inj hi)
      exact hrest
    · rw [List.getElem?_set_ne hij] at hi
      exact safe_stable keeps_trans (h.threads i op' rest'' hi) (others_keep h.owned hij hexec)

/-- What a statement of a session commits is within what its operation may do. -/
theorem SafeRun.guarantee {G : Op → D → D → Prop} (h : SafeRun T does B G p) {i : ℕ} {e : Event Q A}
    {op : Op} {rest : Prog Q A ε α} (hi : p.threads[i]? = some (op, rest))
    (hstep : step T does program p (.answer i e) = some p') : G op p.store.db p'.store.db := by
  obtain ⟨op', rest', rest'', hi', hfollow, hexec, -⟩ := step_answer hstep
  obtain ⟨rfl, rfl⟩ := Prod.mk.inj (Option.some.inj (hi.symm.trans hi'))
  exact ((h.threads i op rest hi).follow (keeps_refl _) ⟨h.owned, h.inv⟩ hfollow hexec).1.2

end Sessions

end Ppb.Transactions
