import Ppb.Common.Service
import Ppb.JoinIntents.Ops

/-!
# The life of a join intent

One task handles `user.online`: it matches an intent, moves the player and sets the final
status; another one, and the API, work on the same entries. `update_status` overwrites
whatever it finds. An intent that expires while its player is being moved is marked
`expired`, or read as such, and becomes `completed` or `failed` afterwards.

* `InTime db e`: the task does not write to an intent that is marked `expired`, and sets
  no final status to one that reads as expired.
* `Fulfils`, `Beside`: what the task does, and what everybody else does.
* `life_cycle`: in every run whose writes by the task are in time, an intent goes through
  its statuses in order, a final status stays, and an intent is moved at most once.
-/

namespace Ppb.JoinIntents

open Prog Shared Trace

variable {db db' db'' : Db} {a x y : JoinIntent} {id : Uuid}

/-! ## Statuses -/

/-- The next status of an intent. -/
def Status.advances : Status → Status → Bool
  | .pending, .userOnline | .userOnline, .moving | .moving, .completed | .moving, .failed => true
  | s, .expired => !s.isTerminal
  | _, _ => false

theorem nonterminal_of_advances {s t : Status} (h : s.advances t = true) : s.isTerminal = false := by
  cases s <;> cases t <;> first | rfl | cases h

theorem advances_expired {s : Status} (h : s.isTerminal = false) : s.advances .expired = true := by
  cases s <;> first | rfl | cases h

theorem effectiveStatus_eq_expired {now : ℕ} : effectiveStatus now a = .expired ↔
    a.status = .expired ∨ a.status.isTerminal = false ∧ a.expiresAt ≤ now := by
  unfold effectiveStatus
  split_ifs with h
  · exact iff_of_true rfl (.inr ⟨h.2, h.1⟩)
  · constructor
    · exact fun heq => .inl heq
    · rintro (heq | ⟨hstatus, htime⟩)
      · exact heq
      · exact absurd ⟨htime, hstatus⟩ h

theorem effectiveStatus_of_terminal {now : ℕ} (h : a.status.isTerminal = true) :
    effectiveStatus now a = a.status := by
  rw [effectiveStatus, if_neg (by simp [h])]

/-- What reads as final without being so has expired. -/
theorem expired_of_final {now : ℕ} (h : (effectiveStatus now a).isTerminal = true)
    (hstatus : a.status.isTerminal = false) :
    effectiveStatus now a = .expired ∧ a.expiresAt ≤ now := by
  unfold effectiveStatus at h ⊢
  split_ifs at h ⊢ with hlate
  · exact ⟨rfl, hlate.1⟩
  · rw [hstatus] at h
    cases h

theorem effectiveStatus_kept {now now' : ℕ} (hle : now ≤ now')
    (h : (effectiveStatus now a).isTerminal = true) :
    effectiveStatus now' a = effectiveStatus now a := by
  by_cases hstatus : a.status.isTerminal = true
  · rw [effectiveStatus_of_terminal hstatus, effectiveStatus_of_terminal hstatus]
  · have hopen : a.status.isTerminal = false := by simpa using hstatus
    obtain ⟨hexpired, htime⟩ := expired_of_final h hopen
    rw [hexpired, effectiveStatus_eq_expired]
    exact .inr ⟨hopen, htime.trans hle⟩

/-! ## Rely and guarantee -/

/-- The ids that were drawn. -/
def Db.Known (db : Db) (id : Uuid) : Prop := id ∈ db.created.map (·.1)

/-- `match_online` has found the intent pending, before its time. -/
def Db.Matched (db : Db) (id : Uuid) : Prop :=
  ∃ m ∈ db.looked, m.1.id = id ∧ m.1.status = .pending ∧ m.2 < m.1.expiresAt

structure Alive (db : Db) : Prop where
  known : ∀ a ∈ db.intents, db.Known a.id
  once : db.moves.Nodup
  moved : ∀ id ∈ db.moves, db.Known id ∧ db.Matched id ∧
    ∀ a ∈ db.intents, a.id = id → a.status ≠ .pending

/-- What the API and the cleanup do. -/
structure Beside (db db' : Db) : Prop where
  clock : db.clock ≤ db'.clock
  created : db.created ⊆ db'.created
  looked : db.looked ⊆ db'.looked
  moves : db'.moves = db.moves
  intents : ∀ y ∈ db'.intents, (∃ x ∈ db.intents, y = x ∨
    x.status.isTerminal = false ∧ x.expiresAt ≤ db'.clock ∧ y = { x with status := .expired }) ∨
      ¬ db.Known y.id

/-- What the task does. -/
structure Fulfils (db db' : Db) : Prop where
  clock : db.clock ≤ db'.clock
  created : db.created ⊆ db'.created
  intents : ∀ y ∈ db'.intents, ∃ x ∈ db.intents, y = x ∨ y = { x with status := y.status } ∧
    x.status.advances y.status = true ∧
      (y.status.isTerminal = true → effectiveStatus db.clock x ≠ .expired)

/-- A final status, stored or read, stays: on this the cleanup relies. -/
structure Lasts (db db' : Db) : Prop where
  clock : db.clock ≤ db'.clock
  created : db.created ⊆ db'.created
  intents : ∀ y ∈ db'.intents, (∃ x ∈ db.intents, x.id = y.id ∧
    ((effectiveStatus db.clock x).isTerminal = true →
      effectiveStatus db'.clock y = effectiveStatus db.clock x)) ∨ ¬ db.Known y.id

theorem Db.Known.mono (h : db.Known id) (hcreated : db.created ⊆ db'.created) : db'.Known id := by
  obtain ⟨c, hc, rfl⟩ := List.mem_map.mp h
  exact List.mem_map.mpr ⟨c, hcreated hc, rfl⟩

theorem Db.Matched.mono (h : db.Matched id) (hlooked : db.looked ⊆ db'.looked) : db'.Matched id := by
  obtain ⟨m, hm, hmatched⟩ := h
  exact ⟨m, hlooked hm, hmatched⟩

theorem Beside.refl (db : Db) : Beside db db :=
  ⟨le_refl _, List.Subset.refl _, List.Subset.refl _, rfl, fun y hy => .inl ⟨y, hy, .inl rfl⟩⟩

theorem Lasts.refl (db : Db) : Lasts db db :=
  ⟨le_refl _, List.Subset.refl _, fun y hy => .inl ⟨y, hy, rfl, fun _ => rfl⟩⟩

theorem Beside.trans (h₁ : Beside db db') (h₂ : Beside db' db'') : Beside db db'' := by
  refine ⟨h₁.clock.trans h₂.clock, List.Subset.trans h₁.created h₂.created,
    List.Subset.trans h₁.looked h₂.looked, h₂.moves.trans h₁.moves, fun z hz => ?_⟩
  rcases h₂.intents z hz with ⟨y, hy, hzy⟩ | hnew
  · rcases h₁.intents y hy with ⟨x, hx, hyx⟩ | hnew
    · refine .inl ⟨x, hx, ?_⟩
      rcases hyx with rfl | ⟨hstatus, htime, rfl⟩
      · exact hzy
      · rcases hzy with rfl | ⟨hstatus', -⟩
        · exact .inr ⟨hstatus, htime.trans h₂.clock, rfl⟩
        · cases hstatus'
    · refine .inr ?_
      rcases hzy with rfl | ⟨-, -, rfl⟩
      · exact hnew
      · exact hnew
  · exact .inr fun hknown => hnew (hknown.mono h₁.created)

theorem Lasts.trans (h₁ : Lasts db db') (h₂ : Lasts db' db'') : Lasts db db'' := by
  refine ⟨h₁.clock.trans h₂.clock, List.Subset.trans h₁.created h₂.created, fun z hz => ?_⟩
  rcases h₂.intents z hz with ⟨y, hy, hid, hlasts⟩ | hnew
  · rcases h₁.intents y hy with ⟨x, hx, hid', hlasts'⟩ | hnew
    · refine .inl ⟨x, hx, hid'.trans hid, fun hfinal => ?_⟩
      have hkept := hlasts' hfinal
      exact (hlasts (hkept ▸ hfinal)).trans hkept
    · exact .inr (hid ▸ hnew)
  · exact .inr fun hknown => hnew (hknown.mono h₁.created)

theorem Beside.lasts (h : Beside db db') : Lasts db db' := by
  refine ⟨h.clock, h.created, fun y hy => ?_⟩
  rcases h.intents y hy with ⟨x, hx, rfl | ⟨hstatus, -, rfl⟩⟩ | hnew
  · exact .inl ⟨y, hx, rfl, effectiveStatus_kept h.clock⟩
  · refine .inl ⟨x, hx, rfl, fun hfinal => ?_⟩
    rw [(expired_of_final hfinal hstatus).1]
    exact effectiveStatus_of_terminal rfl
  · exact .inr hnew

theorem Fulfils.lasts (h : Fulfils db db') : Lasts db db' := by
  refine ⟨h.clock, h.created, fun y hy => .inl ?_⟩
  obtain ⟨x, hx, rfl | ⟨heq, hadvances, hterminal⟩⟩ := h.intents y hy
  · exact ⟨y, hx, rfl, effectiveStatus_kept h.clock⟩
  · refine ⟨x, hx, by rw [heq], fun hfinal => ?_⟩
    obtain ⟨hexpired, htime⟩ := expired_of_final hfinal (nonterminal_of_advances hadvances)
    have hopen : y.status.isTerminal = false := by
      by_contra hne
      exact hterminal (by simpa using hne) hexpired
    rw [hexpired, effectiveStatus_eq_expired]
    refine .inr ⟨hopen, ?_⟩
    rw [heq]
    exact htime.trans h.clock

/-! ## Accesses that change no intent -/

/-- Time, the index and what was looked up may change. -/
structure Quiet (db db' : Db) : Prop where
  intents : db'.intents = db.intents
  clock : db.clock ≤ db'.clock
  created : db'.created = db.created
  looked : db.looked ⊆ db'.looked
  moves : db'.moves = db.moves

theorem Quiet.refl (db : Db) : Quiet db db := ⟨rfl, le_refl _, rfl, List.Subset.refl _, rfl⟩

theorem Quiet.alive (h : Quiet db db') (halive : Alive db) : Alive db' := by
  have hcreated : db.created ⊆ db'.created := h.created ▸ List.Subset.refl _
  refine ⟨fun a ha => ?_, h.moves ▸ halive.once, fun id hid => ?_⟩
  · exact (halive.known a (h.intents ▸ ha)).mono hcreated
  · obtain ⟨hknown, hmatched, hstatus⟩ := halive.moved id (h.moves ▸ hid)
    exact ⟨hknown.mono hcreated, hmatched.mono h.looked, fun a ha => hstatus a (h.intents ▸ ha)⟩

theorem Quiet.beside (h : Quiet db db') : Beside db db' :=
  ⟨h.clock, h.created ▸ List.Subset.refl _, h.looked, h.moves,
    fun y hy => .inl ⟨y, h.intents ▸ hy, .inl rfl⟩⟩

theorem Quiet.fulfils (h : Quiet db db') : Fulfils db db' :=
  ⟨h.clock, h.created ▸ List.Subset.refl _, fun y hy => ⟨y, h.intents ▸ hy, .inl rfl⟩⟩

/-- The accesses that write no intent and move nobody. -/
def Query.isQuiet : Query → Bool
  | .insertIntent .. | .updateStatus .. | .removeIntent _ | .forceMove .. => false
  | .now | .getIntent _ | .lookIntent _ | .intentIds | .listIntents | .getPhira _ | .insertPhira ..
  | .removePhira .. => true

theorem quiet_of_exec {e : Event Query Query.Answer} (hq : e.1.isQuiet = true)
    (h : exec db e = some db') : Quiet db db' := by
  obtain ⟨q, answer⟩ := e
  cases q with
  | insertIntent _ _ _ _ _ | updateStatus _ _ | removeIntent _ | forceMove _ _ _ => cases hq
  | now =>
    simp only [exec] at h
    split_ifs at h with hnow
    obtain rfl := Option.some.inj h
    exact ⟨rfl, hnow, rfl, List.Subset.refl _, rfl⟩
  | lookIntent id =>
    simp only [exec] at h
    split_ifs at h
    obtain rfl := Option.some.inj h
    exact ⟨rfl, le_refl _, rfl, List.subset_append_right _ _, rfl⟩
  | getIntent id | intentIds | listIntents | getPhira phiraId =>
    simp only [exec] at h
    split_ifs at h
    obtain rfl := Option.some.inj h
    exact .refl _
  | insertPhira phiraId id | removePhira phiraId of =>
    obtain rfl := Option.some.inj h
    exact ⟨rfl, le_refl _, rfl, List.Subset.refl _, rfl⟩

/-! ## The API and the cleanup -/

/-- `p` works beside the task. -/
abbrev Serves {α : Type} (p : Handler α) (db : Db) (P : Db → Except ApiError α → Prop) : Prop :=
  Safe (fun db e db' => exec db e = some db' ∧ True) Alive Lasts Beside p db P

section Rules

variable {α : Type} {P : Db → Except ApiError α → Prop}

/-- A write of the pool. -/
theorem serves_ask {q : Query} {k : q.Answer → Handler α}
    (h : ∀ db₁, Lasts db db₁ → Alive db₁ → ∀ answer db₂, exec db₁ ⟨q, answer⟩ = some db₂ →
      (Alive db₂ ∧ Beside db₁ db₂) ∧ Serves (k answer) db₂ P) : Serves (ask q >>= k) db P :=
  fun db₁ hlasts halive answer db₂ hdoes => h db₁ hlasts halive answer db₂ hdoes.1

theorem serves_quiet {q : Query} {k : q.Answer → Handler α} (hq : q.isQuiet = true)
    (hk : ∀ answer db₁ db₂, Lasts db db₂ → Alive db₂ → exec db₁ ⟨q, answer⟩ = some db₂ →
      Serves (k answer) db₂ P) : Serves (ask q >>= k) db P := by
  refine serves_ask fun db₁ hlasts halive answer db₂ hexec => ?_
  have hquiet := quiet_of_exec hq hexec
  exact ⟨⟨hquiet.alive halive, hquiet.beside⟩,
    hk answer db₁ db₂ (hlasts.trans hquiet.beside.lasts) (hquiet.alive halive) hexec⟩

theorem serves_done {r : Except ApiError α} : Serves (.done r) db fun _ _ => True :=
  fun _ _ _ => trivial

theorem serves_bind {β : Type} {p : Handler β} {k : β → Handler α} (halive : Alive db)
    (hp : Serves p db fun _ _ => True)
    (hk : ∀ db' x, Lasts db db' → Alive db' → Serves (k x) db' fun _ _ => True) :
    Serves (p >>= k) db fun _ _ => True := by
  have hsince := safe_since Lasts.refl Lasts.trans Beside.lasts hp
  exact safe_bind Lasts.refl halive hsince (fun db' x halive' h => hk db' x h.1 halive')
    fun _ _ _ _ => trivial

end Rules

/-- A new intent. -/
theorem Adds.alive (h : Adds a db db') (halive : Alive db) : Alive db' ∧ Beside db db' := by
  have hcreated : db.created ⊆ db'.created := h.created ▸ List.subset_cons_self _ _
  have hnew : ¬ db.Known a.id := by
    intro hknown
    obtain ⟨c, hc, heq⟩ := List.mem_map.mp hknown
    exact h.fresh c hc heq
  refine ⟨⟨fun b hb => ?_, h.moves ▸ halive.once, fun id hid => ?_⟩, h.clock ▸ le_refl _, hcreated,
    h.looked ▸ List.Subset.refl _, h.moves, fun y hy => ?_⟩
  · rcases (h.mem b).mp hb with hb | rfl
    · exact (halive.known b hb).mono hcreated
    · rw [Db.Known, h.created]
      exact List.mem_cons_self
  · rw [h.moves] at hid
    obtain ⟨hknown, hmatched, hstatus⟩ := halive.moved id hid
    refine ⟨hknown.mono hcreated, hmatched.mono (h.looked ▸ List.Subset.refl _), fun b hb heq => ?_⟩
    rcases (h.mem b).mp hb with hb | rfl
    · exact hstatus b hb heq
    · exact absurd (heq ▸ hknown) hnew
  · rcases (h.mem y).mp hy with hy | rfl
    · exact .inl ⟨y, hy, .inl rfl⟩
    · exact .inr hnew

/-- An intent that goes. -/
theorem removeIntent_alive (halive : Alive db) :
    Alive (db.removeIntent id) ∧ Beside db (db.removeIntent id) := by
  refine ⟨⟨fun b hb => halive.known b (mem_removeIntent.mp hb).1, halive.once, fun i hi => ?_⟩,
    le_refl _, List.Subset.refl _, List.Subset.refl _, rfl,
    fun y hy => .inl ⟨y, (mem_removeIntent.mp hy).1, .inl rfl⟩⟩
  obtain ⟨hknown, hmatched, hstatus⟩ := halive.moved i hi
  exact ⟨hknown, hmatched, fun b hb => hstatus b (mem_removeIntent.mp hb).1⟩

/-- An intent, if it is there, reads as expired. -/
structure Lapsed (id : Uuid) (db : Db) : Prop where
  known : db.Known id
  expired : ∀ a ∈ db.intents, a.id = id → effectiveStatus db.clock a = .expired

theorem Lapsed.lasts (h : Lapsed id db) (hlasts : Lasts db db') : Lapsed id db' := by
  refine ⟨h.known.mono hlasts.created, fun y hy hid => ?_⟩
  rcases hlasts.intents y hy with ⟨x, hx, heq, hkept⟩ | hnew
  · have hexpired := h.expired x hx (heq.trans hid)
    exact (hkept (by rw [hexpired]; rfl)).trans hexpired
  · exact absurd (hid ▸ h.known) hnew

/-- A status other than `pending` breaks no invariant. -/
theorem SetsStatus.alive {status : Status} (h : SetsStatus id status db db')
    (hstatus : status ≠ .pending) (halive : Alive db) : Alive db' := by
  have hcreated : db.created ⊆ db'.created := h.created ▸ List.Subset.refl _
  refine ⟨fun y hy => ?_, h.moves ▸ halive.once, fun i hi => ?_⟩
  · obtain ⟨x, hx, rfl⟩ := (h.mem y).mp hy
    split_ifs
    · exact (halive.known x hx).mono hcreated
    · exact (halive.known x hx).mono hcreated
  · obtain ⟨hknown, hmatched, hmoved⟩ := halive.moved i (h.moves ▸ hi)
    refine ⟨hknown.mono hcreated, hmatched.mono (h.looked ▸ List.Subset.refl _), fun y hy heq => ?_⟩
    obtain ⟨x, hx, rfl⟩ := (h.mem y).mp hy
    split_ifs at heq ⊢
    · exact hstatus
    · exact hmoved x hx heq

/-- The mark of the cleanup. -/
theorem SetsStatus.beside (h : SetsStatus id .expired db db') (hlapsed : Lapsed id db) :
    Beside db db' := by
  refine ⟨h.clock ▸ le_refl _, h.created ▸ List.Subset.refl _, h.looked ▸ List.Subset.refl _, h.moves,
    fun y hy => ?_⟩
  obtain ⟨x, hx, rfl⟩ := (h.mem y).mp hy
  refine .inl ⟨x, hx, ?_⟩
  split_ifs with hid
  · rcases effectiveStatus_eq_expired.mp (hlapsed.expired x hx hid) with hmarked | ⟨hstatus, htime⟩
    · exact .inl (by rw [← hmarked])
    · exact .inr ⟨hstatus, by rw [h.clock]; exact htime, rfl⟩
  · exact .inl rfl

theorem serves_create {userId : Uuid} {phiraId : Int64} {roomId : String} {ttlSecs : Option ℤ} :
    Serves (create userId phiraId roomId ttlSecs) db fun _ _ => True := by
  apply safe_failIf_bind (fun _ _ _ _ => trivial)
  intro hroom
  apply safe_failIf_bind (fun _ _ _ _ => trivial)
  intro httl
  refine serves_quiet rfl fun now _ db₁ _ halive _ => ?_
  refine serves_ask fun db₂ _ halive drawn db₃ hexec => ?_
  obtain ⟨id, previous⟩ := drawn
  simp only [exec] at hexec
  split_ifs at hexec
  refine ⟨(addIntent_spec hexec).alive halive, ?_⟩
  cases previous with
  | none => exact serves_quiet rfl fun _ _ _ _ _ _ => serves_done
  | some prev =>
    exact serves_quiet rfl fun _ _ _ _ _ _ => serves_quiet rfl fun _ _ _ _ _ _ => serves_done

theorem serves_get {userId id : Uuid} : Serves (get userId id) db fun _ _ => True := by
  refine serves_quiet rfl fun found _ _ _ _ _ => ?_
  cases found with
  | none => exact serves_done
  | some a =>
    dsimp only
    split_ifs
    · exact serves_quiet rfl fun _ _ _ _ _ _ => serves_done
    · exact serves_done

theorem serves_cancel {userId id : Uuid} : Serves (cancel userId id) db fun _ _ => True := by
  refine serves_quiet rfl fun found _ _ _ _ _ => ?_
  cases found with
  | none => exact serves_done
  | some a =>
    dsimp only
    split_ifs
    · refine serves_quiet rfl fun _ _ _ _ _ _ => serves_ask fun db₁ _ halive removed db₂ hexec => ?_
      simp only [exec] at hexec
      split_ifs at hexec
      obtain rfl := Option.some.inj hexec
      exact ⟨removeIntent_alive halive, serves_done⟩
    · exact serves_done

theorem serves_listForUser {userId : Uuid} : Serves (listForUser userId) db fun _ _ => True := by
  have hall : ∀ intents db, Serves (effectiveAll intents) db fun _ _ => True := by
    intro intents
    induction intents with
    | nil => exact fun db => serves_done
    | cons a rest ih =>
      refine fun db => serves_quiet rfl fun now _ db₁ _ halive _ => ?_
      exact serves_bind halive (ih db₁) fun _ _ _ _ => serves_done
  exact serves_quiet rfl fun _ _ _ _ _ _ => serves_quiet rfl fun _ _ _ _ _ _ => hall _ _

/-- The mark of the cleanup, as an access. -/
theorem serves_mark {id : Uuid} (hlapsed : Lapsed id db) :
    Serves (ask (.updateStatus id .expired) >>= fun _ => (pure 0 : Handler ℕ)) db fun _ _ => True := by
  refine serves_ask fun db₁ hlasts halive _ db₂ hexec => ?_
  have hsets := setStatus_spec hexec
  exact ⟨⟨hsets.alive nofun halive, hsets.beside (hlapsed.lasts hlasts)⟩, serves_done⟩

theorem serves_cleanupOne {now : ℕ} {id : Uuid} (hknown : db.Known id) (hnow : now ≤ db.clock) :
    Serves (cleanupOne now id) db fun _ _ => True := by
  refine serves_quiet rfl fun found db₁ db₂ hlasts _ hexec => ?_
  have hfound : db₂ = db₁ ∧ found = db₁.find id := by
    simp only [exec] at hexec
    split_ifs at hexec with hfound
    exact ⟨(Option.some.inj hexec).symm, hfound⟩
  obtain ⟨rfl, hfind⟩ := hfound
  have hknown' := hknown.mono hlasts.created
  cases found with
  | none =>
    refine serves_mark ⟨hknown', fun a ha hid => ?_⟩
    exact absurd hid (find_eq_none.mp hfind.symm a ha)
  | some a =>
    obtain ⟨ha, hid⟩ := find_eq_some.mp hfind.symm
    dsimp only
    split_ifs with hlive hterminal hold
    · exact serves_done
    · refine serves_ask fun db₃ _ halive removed db₄ hexec => ?_
      simp only [exec] at hexec
      split_ifs at hexec
      obtain rfl := Option.some.inj hexec
      refine ⟨removeIntent_alive halive, ?_⟩
      cases removed with
      | none => exact serves_done
      | some b => exact serves_quiet rfl fun _ _ _ _ _ _ => serves_done
    · exact serves_done
    · refine serves_mark ⟨hknown', fun b hb hid' => ?_⟩
      rw [eq_of_id hb ha (hid'.trans hid.symm), effectiveStatus_eq_expired]
      exact .inr ⟨by simpa using hterminal, (not_lt.mp hlive).trans (hnow.trans hlasts.clock)⟩

theorem serves_cleanupAll {now : ℕ} {ids : List Uuid} (halive : Alive db)
    (hknown : ∀ id ∈ ids, db.Known id) (hnow : now ≤ db.clock) :
    Serves (cleanupAll now ids) db fun _ _ => True := by
  induction ids generalizing db with
  | nil => exact serves_done
  | cons id rest ih =>
    refine serves_bind halive (serves_cleanupOne (hknown id List.mem_cons_self) hnow)
      fun db' n hlasts halive' => ?_
    refine serves_bind halive' (ih halive' (fun i hi => ?_) (hnow.trans hlasts.clock))
      fun _ _ _ _ => serves_done
    exact (hknown i (List.mem_cons_of_mem _ hi)).mono hlasts.created

theorem serves_cleanupExpired : Serves cleanupExpired db fun _ _ => True := by
  refine serves_quiet rfl fun now db₁ db₂ _ _ hexec => ?_
  simp only [exec] at hexec
  split_ifs at hexec
  obtain rfl := Option.some.inj hexec
  refine serves_quiet rfl fun ids db₃ db₄ hlasts halive hexec => ?_
  simp only [exec] at hexec
  split_ifs at hexec with hids
  obtain rfl := Option.some.inj hexec
  refine serves_cleanupAll halive (fun id hid => ?_) hlasts.clock
  show id ∈ db₃.created.map (·.1)
  exact of_decide_eq_true (List.all_eq_true.mp hids id hid)

/-- What runs beside the task: the API and the cleanup. -/
inductive Request where
  | create (userId : Uuid) (phiraId : Int64) (roomId : String) (ttlSecs : Option ℤ)
  | get (userId id : Uuid)
  | cancel (userId id : Uuid)
  | listForUser (userId : Uuid)
  | cleanupExpired

def Request.program : Request → Handler Reply
  | .create userId phiraId roomId ttlSecs => (Op.create userId phiraId roomId ttlSecs).program
  | .get userId id => (Op.get userId id).program
  | .cancel userId id => (Op.cancel userId id).program
  | .listForUser userId => (Op.listForUser userId).program
  | .cleanupExpired => Op.cleanupExpired.program

theorem serves_program (halive : Alive db) (request : Request) :
    Serves request.program db fun _ _ => True := by
  cases request with
  | create userId phiraId roomId ttlSecs =>
    exact serves_bind halive serves_create fun _ _ _ _ => serves_done
  | get userId id => exact serves_bind halive serves_get fun _ _ _ _ => serves_done
  | cancel userId id => exact serves_bind halive serves_cancel fun _ _ _ _ => serves_done
  | listForUser userId => exact serves_bind halive serves_listForUser fun _ _ _ _ => serves_done
  | cleanupExpired => exact serves_bind halive serves_cleanupExpired fun _ _ _ _ => serves_done

/-! ## The task -/

/-- The write does not come too late. -/
def NotLate (db : Db) (id : Uuid) (status : Status) : Prop :=
  ∀ a ∈ db.intents.rows, a.id = id →
    (if status.isTerminal = true then effectiveStatus db.clock a else a.status) ≠ .expired

instance (db : Db) (id : Uuid) (status : Status) : Decidable (NotLate db id status) :=
  inferInstanceAs (Decidable (∀ a ∈ db.intents.rows, a.id = id → _))

/-- The status a write sets. -/
def Query.writes : Query → Option (Uuid × Status)
  | .updateStatus id status => some (id, status)
  | _ => none

/-- The writes of the task do not come too late. -/
def InTime (db : Db) (e : Event Query Query.Answer) : Prop :=
  ∀ w ∈ e.1.writes, NotLate db w.1 w.2

instance (db : Db) (e : Event Query Query.Answer) : Decidable (InTime db e) :=
  Option.decidableForallMem _

/-- `p` is a part of a turn of the task. -/
abbrev Turns {α : Type} (p : Handler α) (db : Db) (P : Db → Except ApiError α → Prop) : Prop :=
  Safe (fun db e db' => exec db e = some db' ∧ InTime db e) Alive Beside Fulfils p db P

/-- The intent, if it is there, has this status or is marked `expired`. -/
structure Holds (id : Uuid) (status : Status) (db : Db) : Prop where
  known : db.Known id
  status : ∀ a ∈ db.intents, a.id = id → a.status = status ∨ a.status = .expired

theorem Holds.beside {status : Status} (h : Holds id status db) (hbeside : Beside db db') :
    Holds id status db' := by
  refine ⟨h.known.mono hbeside.created, fun y hy hid => ?_⟩
  rcases hbeside.intents y hy with ⟨x, hx, rfl | ⟨-, -, rfl⟩⟩ | hnew
  · exact h.status y hx hid
  · exact .inr rfl
  · exact absurd (hid ▸ h.known) hnew

section Rules

variable {α : Type} {P : Db → Except ApiError α → Prop}

theorem turns_quiet {q : Query} {k : q.Answer → Handler α} (hq : q.isQuiet = true)
    (hk : ∀ answer db₁ db₂, Beside db db₂ → Alive db₂ → exec db₁ ⟨q, answer⟩ = some db₂ →
      Turns (k answer) db₂ P) : Turns (ask q >>= k) db P := by
  intro db₁ hbeside halive answer db₂ hdoes
  have hquiet := quiet_of_exec hq hdoes.1
  exact ⟨⟨hquiet.alive halive, hquiet.fulfils⟩,
    hk answer db₁ db₂ (hbeside.trans hquiet.beside) (hquiet.alive halive) hdoes.1⟩

/-- A write of the task: the next status of the intent it holds. -/
theorem turns_update {status next : Status} {k : Unit → Handler α} (hholds : Holds id status db)
    (hadvances : status.advances next = true) (hnext : next ≠ .pending)
    (hk : ∀ db₂, Holds id next db₂ → db₂.moves = db.moves → db.looked ⊆ db₂.looked →
      Turns (k ()) db₂ P) : Turns (ask (.updateStatus id next) >>= k) db P := by
  intro db₁ hbeside halive answer db₂ hdoes
  have hsets := setStatus_spec hdoes.1
  have hholds₁ := hholds.beside hbeside
  have hlate : NotLate db₁ id next := hdoes.2 (id, next) rfl
  -- not too late, so the intent still has the status it is held with
  have hstatus : ∀ x ∈ db₁.intents, x.id = id → x.status = status := by
    intro x hx hid
    rcases hholds₁.status x hx hid with hstatus | hexpired
    · exact hstatus
    · have hne := hlate x hx hid
      split_ifs at hne
      · exact absurd (effectiveStatus_eq_expired.mpr (.inl hexpired)) hne
      · exact absurd hexpired hne
  refine ⟨⟨hsets.alive hnext halive, ?_⟩, ?_⟩
  · refine ⟨hsets.clock ▸ le_refl _, hsets.created ▸ List.Subset.refl _, fun y hy => ?_⟩
    obtain ⟨x, hx, rfl⟩ := (hsets.mem y).mp hy
    refine ⟨x, hx, ?_⟩
    split_ifs with hid
    · refine .inr ⟨rfl, by rw [hstatus x hx hid]; exact hadvances, fun hterminal => ?_⟩
      have hne := hlate x hx hid
      rwa [if_pos hterminal] at hne
    · exact .inl rfl
  · refine hk db₂ ⟨?_, fun y hy hid => ?_⟩ ?_ ?_
    · exact hholds₁.known.mono (hsets.created ▸ List.Subset.refl _)
    · obtain ⟨x, hx, rfl⟩ := (hsets.mem y).mp hy
      split_ifs at hid ⊢ with hxid
      · exact .inl rfl
      · exact absurd hid hxid
    · rw [hsets.moves, hbeside.moves]
    · rw [hsets.looked]
      exact hbeside.looked

end Rules

/-- After `match_online` the task holds an intent that was never moved. -/
theorem turns_matchOnline {phiraId : Int64} :
    Turns (matchOnline phiraId) db fun db' r => ∀ a, r = .ok (some a) →
      Holds a.id .userOnline db' ∧ a.id ∉ db'.moves ∧ db'.Matched a.id := by
  refine turns_quiet rfl fun index _ db₁ _ _ _ => ?_
  cases index with
  | none => exact fun _ _ _ a hr => nomatch hr
  | some id =>
    refine turns_quiet rfl fun found db₂ db₃ _ halive₃ hexec => ?_
    cases found with
    | none => exact fun _ _ _ a hr => nomatch hr
    | some a =>
      have hfound : a ∈ db₃.intents ∧ a.id = id ∧ (a, db₃.clock) ∈ db₃.looked := by
        simp only [exec] at hexec
        split_ifs at hexec with hfind
        obtain ⟨ha, hid⟩ := find_eq_some.mp hfind.symm
        obtain rfl := Option.some.inj hexec
        exact ⟨ha, hid, List.mem_append_left _ List.mem_cons_self⟩
      obtain ⟨ha, rfl, hlooked⟩ := hfound
      refine turns_quiet rfl fun now db₄ db₅ hbeside halive₅ hexec => ?_
      have hclock : db₅.clock = now := by
        simp only [exec] at hexec
        split_ifs at hexec
        rw [← Option.some.inj hexec]
      split_ifs with hpending
      · have hstatus : a.status = .pending ∧ now < a.expiresAt := by
          unfold effectiveStatus at hpending
          split_ifs at hpending with hlate
          refine ⟨hpending, not_le.mp fun htime => hlate ⟨htime, ?_⟩⟩
          rw [hpending]
          rfl
        have hmoved : a.id ∉ db₃.moves := fun hmoved =>
          (halive₃.moved a.id hmoved).2.2 a ha rfl hstatus.1
        have hholds : Holds a.id .pending db₃ := by
          refine ⟨halive₃.known a ha, fun b hb hid => ?_⟩
          rw [eq_of_id hb ha hid]
          exact .inl hstatus.1
        have hmatched : db₃.Matched a.id := by
          refine ⟨_, hlooked, rfl, hstatus.1, ?_⟩
          exact (hbeside.clock.trans hclock.le).trans_lt hstatus.2
        refine turns_update (hholds.beside hbeside) rfl nofun
          fun db₆ hholds₆ hmoves₆ hlooked₆ => ?_
        intro db₇ hbeside₇ _ b hr
        obtain rfl : { a with status := .userOnline } = b := Option.some.inj (Except.ok.inj hr)
        refine ⟨hholds₆.beside hbeside₇, ?_, ?_⟩
        · rw [hbeside₇.moves, hmoves₆, hbeside.moves]
          exact hmoved
        · exact hmatched.mono (List.Subset.trans hbeside.looked
            (List.Subset.trans hlooked₆ hbeside₇.looked))
      · exact fun _ _ _ b hr => nomatch hr

/-- Sending the move. -/
theorem turns_forceMove {α : Type} {roomId : String} {player : Int32} {k : Bool → Handler α}
    {P : Db → Except ApiError α → Prop} (hholds : Holds id .moving db) (hmoved : id ∉ db.moves)
    (hmatched : db.Matched id) (hk : ∀ ok db₂, Holds id .moving db₂ → Turns (k ok) db₂ P) :
    Turns (ask (.forceMove id roomId player) >>= k) db P := by
  intro db₁ hbeside halive ok db₂ hdoes
  have hholds₁ := hholds.beside hbeside
  obtain rfl := Option.some.inj hdoes.1
  refine ⟨⟨⟨halive.known, ?_, fun i hi => ?_⟩, le_refl _, List.Subset.refl _,
    fun y hy => ⟨y, hy, .inl rfl⟩⟩, hk ok _ ⟨hholds₁.known, hholds₁.status⟩⟩
  · refine List.nodup_cons.mpr ⟨?_, halive.once⟩
    rwa [hbeside.moves]
  · rcases List.mem_cons.mp hi with rfl | hi
    · refine ⟨hholds₁.known, hmatched.mono hbeside.looked, fun a ha hid hpending => ?_⟩
      rcases hholds₁.status a ha hid with hstatus | hstatus
      · rw [hpending] at hstatus
        cases hstatus
      · rw [hpending] at hstatus
        cases hstatus
    · exact halive.moved i hi

theorem turns_markTerminal {ok : Bool} (hholds : Holds id .moving db) :
    Turns (markTerminal id (moveStatus ok)) db fun _ _ => True := by
  refine turns_quiet rfl fun found _ db₁ hbeside _ _ => ?_
  refine turns_update (hholds.beside hbeside) (by cases ok <;> rfl) (by cases ok <;> nofun)
    fun db₂ _ _ _ => ?_
  cases found with
  | none => exact fun _ _ _ => trivial
  | some a => exact turns_quiet rfl fun _ _ _ _ _ _ => fun _ _ _ => trivial

theorem turns_fulfil {frame : EventFrame} (halive : Alive db) :
    Turns (fulfil frame) db fun _ _ => True := by
  unfold fulfil
  dsimp only
  split_ifs
  · refine safe_bind Beside.refl halive turns_matchOnline (fun db₁ matched _ hmatched => ?_)
      fun _ _ _ _ => trivial
    cases matched with
    | none => exact fun _ _ _ => trivial
    | some a =>
      obtain ⟨hholds, hmoved, hlooked⟩ := hmatched a rfl
      refine turns_update hholds rfl nofun fun db₂ hholds₂ hmoves hlooked₂ => ?_
      refine turns_forceMove hholds₂ (hmoves ▸ hmoved) (hlooked.mono hlooked₂) fun ok db₃ hholds₃ => ?_
      exact turns_markTerminal hholds₃
  · exact fun _ _ _ => trivial

/-! ## Every run -/

/-- The store, the task and the requests in progress. -/
abbrev System := Service Query Query.Answer Db Request ApiError Reply

def step : System → Service.Label Query Query.Answer Request EventFrame → Option System :=
  Service.step exec fulfil Request.program

/-- When the server starts. -/
def System.new : System := ⟨.new, .done (.ok ()), []⟩

/-- A run whose writes by the task are in time. -/
abbrev RunInTime (p p' : System) : Prop := Reaches step (Service.Ok InTime) p p'

theorem safely_of_runInTime {p : System} (hrun : RunInTime .new p) :
    p.Safely exec InTime Alive Beside Fulfils Lasts Beside := by
  have halive : Alive .new := ⟨by simp [Db.new, Table.empty, Table.mem_def], .nil, by simp [Db.new]⟩
  have hstart : System.new.Safely exec InTime Alive Beside Fulfils Lasts Beside :=
    ⟨halive, fun _ _ _ => trivial, by simp [System.new]⟩
  exact Service.safe Beside.refl Beside.trans Lasts.refl Lasts.trans Fulfils.lasts
    (fun h => ⟨h, h.lasts⟩) (fun db frame h => turns_fulfil h)
    (fun db request h => serves_program h request) hstart hrun

/-- One step takes an intent to its next status. -/
theorem status_step {p p' : System} {l : Service.Label Query Query.Answer Request EventFrame}
    (hsafe : p.Safely exec InTime Alive Beside Fulfils Lasts Beside) (hok : p.Ok InTime l)
    (hstep : step p l = some p') (hx : x ∈ p.store.intents) (hy : y ∈ p'.store.intents)
    (hid : x.id = y.id) : y.status = x.status ∨ x.status.advances y.status = true := by
  rcases hsafe.guarantee Beside.refl Lasts.refl hok hstep with hsame | htask | hpool
  · rw [hsame] at hy
    exact .inl (by rw [eq_of_id hx hy hid])
  · obtain ⟨x', hx', heq⟩ := htask.intents y hy
    have hid' : x'.id = y.id := by
      rcases heq with rfl | ⟨heq, -⟩
      · rfl
      · rw [heq]
    obtain rfl := eq_of_id hx' hx (hid'.trans hid.symm)
    rcases heq with rfl | ⟨-, hadvances, -⟩
    · exact .inl rfl
    · exact .inr hadvances
  · rcases hpool.intents y hy with ⟨x', hx', heq⟩ | hnew
    · have hid' : x'.id = y.id := by
        rcases heq with rfl | ⟨-, -, rfl⟩
        · rfl
        · rfl
      obtain rfl := eq_of_id hx' hx (hid'.trans hid.symm)
      rcases heq with rfl | ⟨hstatus, -, rfl⟩
      · exact .inl rfl
      · exact .inr (advances_expired hstatus)
    · exact absurd (hid ▸ hsafe.inv.known x hx) hnew

/-- Along a whole run. -/
theorem lasts_run {p p' : System} (hrun : RunInTime .new p) (hmore : RunInTime p p') :
    Lasts p.store p'.store := by
  induction hmore with
  | start => exact .refl _
  | @next p₁ p₂ l hreach hok hstep ih =>
    have hsafe := safely_of_runInTime (hrun.trans hreach)
    refine ih.trans ?_
    rcases hsafe.guarantee Beside.refl Lasts.refl hok hstep with hsame | htask | hpool
    · exact hsame ▸ .refl _
    · exact htask.lasts
    · exact hpool.lasts

/-- In every run whose writes by the task are in time: each step takes an intent to its
    next status or leaves it; a status that is final, or reads so, never changes; and
    `room.force_move` is sent at most once for an intent, which was pending and not expired
    when it was matched. -/
theorem life_cycle (p : System) (hrun : RunInTime .new p) :
    (∀ l p', p.Ok InTime l → step p l = some p' → ∀ x ∈ p.store.intents, ∀ y ∈ p'.store.intents,
      x.id = y.id → y.status = x.status ∨ x.status.advances y.status = true) ∧
    (∀ p', RunInTime p p' → ∀ x ∈ p.store.intents, ∀ y ∈ p'.store.intents, x.id = y.id →
      (effectiveStatus p.store.clock x).isTerminal = true →
        effectiveStatus p'.store.clock y = effectiveStatus p.store.clock x) ∧
    p.store.moves.Nodup ∧
    ∀ id ∈ p.store.moves, ∃ m ∈ p.store.looked, m.1.id = id ∧ m.1.status = .pending ∧
      m.2 < m.1.expiresAt := by
  have hsafe := safely_of_runInTime hrun
  refine ⟨fun l p' hok hstep x hx y hy => status_step hsafe hok hstep hx hy,
    fun p' hmore x hx y hy hid hfinal => ?_, hsafe.inv.once, fun id hmoved => ?_⟩
  · rcases (lasts_run hrun hmore).intents y hy with ⟨x', hx', hid', hkept⟩ | hnew
    · obtain rfl := eq_of_id hx' hx (hid'.trans hid.symm)
      exact hkept hfinal
    · exact absurd (hid ▸ hsafe.inv.known x hx) hnew
  · exact (hsafe.inv.moved id hmoved).2.1

/-! ### A move that takes too long -/

/-- An intent of the user 1 for one second, at the status `status`. -/
def shortIntent (status : Status) : JoinIntent := ⟨11, 1, 5, "R1", 1000, 1000001000, status⟩

/-- The user leaves his intent; his player comes online, and the move is sent. -/
def moveTrace : List (Service.Label Query Query.Answer Request EventFrame) :=
  [.spawn (.create 1 5 "R1" (some 1)), .answer 0 ⟨.now, (1000 : ℕ)⟩,
    .answer 0 ⟨.insertIntent 1 5 "R1" 1000 1000001000, (11, none)⟩,
    .answer 0 ⟨.insertPhira 5 11, ()⟩, .input ⟨"user.online", some 5⟩,
    .task ⟨.getPhira 5, some 11⟩, .task ⟨.lookIntent 11, some (shortIntent .pending)⟩,
    .task ⟨.now, (2000 : ℕ)⟩, .task ⟨.updateStatus 11 .userOnline, ()⟩,
    .task ⟨.updateStatus 11 .moving, ()⟩, .task ⟨.forceMove 11 "R1" 5, true⟩]

/-- The cleanup comes two seconds later. -/
def cleanupTrace : List (Service.Label Query Query.Answer Request EventFrame) :=
  [.spawn .cleanupExpired, .answer 1 ⟨.now, (2000000000 : ℕ)⟩, .answer 1 ⟨.intentIds, [11]⟩,
    .answer 1 ⟨.getIntent 11, some (shortIntent .moving)⟩, .answer 1 ⟨.updateStatus 11 .expired, ()⟩,
    .task ⟨.getIntent 11, some (shortIntent .expired)⟩]

theorem life_cycle_moved :
    ∃ p : System, RunInTime .new p ∧ p.store.moves = [11] ∧
      ∃ m ∈ p.store.looked, m.1.id = 11 ∧ m.1.status = .pending ∧ m.2 < m.1.expiresAt := by
  have hrun : ((runWhile step (fun p l => decide (p.Ok InTime l)) .new (moveTrace ++
      [.task ⟨.getIntent 11, some (shortIntent .moving)⟩, .task ⟨.updateStatus 11 .completed, ()⟩,
        .task ⟨.removePhira 5 11, ()⟩])).any fun p => decide (p.store.moves = [11])) = true := by
    decide +kernel
  obtain ⟨p, hp, hmoves⟩ := exists_reaches_of_runWhile (fun _ _ h => of_decide_eq_true h) hrun
  have hmoved : p.store.moves = [11] := of_decide_eq_true hmoves
  refine ⟨p, hp, hmoved, (life_cycle p hp).2.2.2 11 ?_⟩
  rw [hmoved]
  exact List.mem_cons_self

/-- The intent expires while the player is being moved, the cleanup marks it, and then it
    is completed. -/
theorem not_life_cycle_late :
    ∃ p p' : System, Reachable step .new p ∧
      step p (.task ⟨.updateStatus 11 .completed, ()⟩) = some p' ∧
      shortIntent .expired ∈ p.store.intents.rows ∧
      shortIntent .completed ∈ p'.store.intents.rows := by
  have hrun : ((runFrom step .new (moveTrace ++ cleanupTrace)).any fun p =>
      (step p (.task ⟨.updateStatus 11 .completed, ()⟩)).any fun p' =>
        decide (shortIntent .expired ∈ p.store.intents.rows ∧
          shortIntent .completed ∈ p'.store.intents.rows)) = true := by decide +kernel
  obtain ⟨p, hp, hnext⟩ := exists_reachable_of_runFrom hrun
  obtain ⟨p', hstep, hstatuses⟩ := (Option.any_eq_true _ _).mp hnext
  exact ⟨p, p', hp, hstep, of_decide_eq_true hstatuses⟩

end Ppb.JoinIntents
