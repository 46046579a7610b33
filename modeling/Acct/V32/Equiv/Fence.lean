import Acct.Machine.Exclusive
import Acct.V32.Db.Equiv.Period
import Acct.V32.Fence

/-!
# Closed history is frozen

Every insert holds the shared side of the sentinel from its trigger to its commit, and a close holds
the exclusive side from before its recount to its commit (`Inv.sentinel`). So nothing uncommitted
lies before the end of a committed close (`TxOk.pending_above`), and nothing is committed between
the recount and the stamp. Closed rows stay, because a row write holds the lock of an open row
(`TxOk.writes_open`).

The recount uses the end date the close loaded, the stamp keeps the row's own: the two agree as long
as no committed update moves the end date in between (`KeepsLoadedEnd`, `run_movedEnd`).
-/

namespace Acct.V32.Fence

open Machine List Option

variable {s s' : State} {i : ℕ} {tx tx' : Tx} {stage stage' : CloseStage} {writes : List RowWrite}
  {rows : List AccountingPeriod} {events : List PhysicalEvent} {c : Close} {r : AccountingPeriod}
  {a : Action}

/-! ### The invariant -/

def CloseStage.period? : CloseStage → Option AccountingPeriod
  | .mutex | .marked _ => none
  | .loaded p | .ordered p | .counted p _ | .gated p _ | .sentinel p _ | .fenced p _
  | .recounted p _ | .stamped p _ _ => some p

/-- What is known of the events a close counted at gate entry: none of them has gone, and after the
recount there are no others. -/
def CloseStage.Counts (events : List PhysicalEvent) : CloseStage → Prop
  | .counted p g | .gated p g | .sentinel p g | .fenced p g =>
    g.Sublist (strictBefore events p.endAt)
  | .recounted p g | .stamped p g _ => g = strictBefore events p.endAt
  | _ => True

def CloseStage.WritesState (rows : List AccountingPeriod) (id : ℤ) : CloseStage → Prop
  | .stamped _ _ row => ∃ r ∈ rows, r.id = id ∧ row = { r with state := .isClosed }
  | .marked row => ∃ r ∈ rows, r.id = id ∧ row = { r with state := .isClosing }
  | _ => True

structure TxOk (s : State) (tx : Tx) : Prop where
  writes_open : ∀ w ∈ tx.writes, ∃ r ∈ s.periods.rows, r.id = w.1 ∧ r.state ≠ .isClosed
  pending_above : ∀ e ∈ tx.pending, ∀ c ∈ s.closes, c.row.endAt ≤ e.postedAt
  counts : ∀ id stage, tx = .closer id stage → stage.Counts s.events
  writes_state : ∀ id stage, tx = .closer id stage → stage.WritesState s.periods.rows id

structure Inv (s : State) : Prop where
  tx : ∀ (i : ℕ) tx, s.txs[i]? = some tx → TxOk s tx
  sentinel : ∀ (i j : ℕ) tx tx', i ≠ j → s.txs[i]? = some tx → s.txs[j]? = some tx' →
    tx.OwnsSentinel → ¬ (tx'.SharesSentinel ∨ tx'.OwnsSentinel)
  rows : ∀ (i j : ℕ) tx tx', i ≠ j → s.txs[i]? = some tx → s.txs[j]? = some tx' →
    ∀ id, tx.OwnsRow id → ¬ tx'.OwnsRow id
  closes : ∀ c ∈ s.closes, c.row ∈ s.periods.rows ∧ c.row.state = .isClosed

/-! ### Steps of one transaction -/

/-- A step of transaction `i` from `tx` to `tx'` that takes a lock only when it is free. -/
structure Advances (s : State) (i : ℕ) (tx tx' : Tx) : Prop where
  ok : TxOk s tx'
  owns : tx'.OwnsSentinel →
    tx.OwnsSentinel ∨ NoOther s.txs i fun tx => tx.SharesSentinel ∨ tx.OwnsSentinel
  shares : tx'.SharesSentinel →
    tx.SharesSentinel ∨ tx.OwnsSentinel ∨ NoOther s.txs i Tx.OwnsSentinel
  row : ∀ id, tx'.OwnsRow id → tx.OwnsRow id ∨ NoOther s.txs i (Tx.OwnsRow id)
  loads : ∀ id stage p, tx' = .closer id stage → stage.period? = some p →
    (∃ stage', tx = .closer id stage' ∧ stage'.period? = some p) ∨ s.row? id = some p

lemma Inv.locks_set (h : Inv s) (hi : s.txs[i]? = some tx) (tx' : Tx)
    (howns : tx'.OwnsSentinel →
      tx.OwnsSentinel ∨ NoOther s.txs i fun tx => tx.SharesSentinel ∨ tx.OwnsSentinel)
    (hshares : tx'.SharesSentinel →
      tx.SharesSentinel ∨ tx.OwnsSentinel ∨ NoOther s.txs i Tx.OwnsSentinel)
    (hrow : ∀ id, tx'.OwnsRow id → tx.OwnsRow id ∨ NoOther s.txs i (Tx.OwnsRow id)) :
    Excludes (s.txs.set i tx') Tx.OwnsSentinel (fun tx => tx.SharesSentinel ∨ tx.OwnsSentinel) ∧
      ∀ id, Exclusive (s.txs.set i tx') (Tx.OwnsRow id) := by
  constructor
  · refine Excludes.set h.sentinel hi howns ?_
    rintro (hs | ho)
    · rcases hshares hs with hs | ho | hfree
      · exact .inl (.inl hs)
      · exact .inl (.inr ho)
      · exact .inr hfree
    · rcases howns ho with ho | hfree
      · exact .inl (.inr ho)
      · exact .inr fun p hp hne ho => hfree p hp hne (.inr ho)
  · intro id
    have hrows : Exclusive s.txs (Tx.OwnsRow id) := fun j k u v hjk hj hk =>
      h.rows j k u v hjk hj hk id
    exact hrows.set hi (hrow id)

lemma Inv.setTx (h : Inv s) (hi : s.txs[i]? = some tx) (ha : Advances s i tx tx') :
    Inv (s.setTx i tx') := by
  obtain ⟨hsentinel, hrows⟩ := h.locks_set hi tx' ha.owns ha.shares ha.row
  refine ⟨fun j u hj => ?_, hsentinel, fun j k u v hjk hj hk id => hrows id j k u v hjk hj hk,
    h.closes⟩
  rcases getElem?_set_cases hj with ⟨-, rfl⟩ | ⟨-, hj⟩
  · exact ⟨ha.ok.writes_open, ha.ok.pending_above, ha.ok.counts, ha.ok.writes_state⟩
  · have hok := h.tx j u hj
    exact ⟨hok.writes_open, hok.pending_above, hok.counts, hok.writes_state⟩

/-! ### What each statement does -/

section Statements

variable {t : Inserter} {id : ℤ}

lemma TxOk.finished (s : State) : TxOk s .finished :=
  ⟨by simp [Tx.writes], by simp [Tx.pending], by simp, by simp⟩

lemma Advances.finished (s : State) (i : ℕ) (tx : Tx) : Advances s i tx .finished :=
  ⟨.finished s, False.elim, False.elim, fun id h => by simp [Tx.OwnsRow, Tx.writes] at h, by simp⟩

lemma Advances.inserter {t' : Inserter}
    (hpending : ∀ e ∈ t'.pending, ∀ c ∈ s.closes, c.row.endAt ≤ e.postedAt)
    (hshares : (Tx.inserter t').SharesSentinel →
      (Tx.inserter t).SharesSentinel ∨ NoOther s.txs i Tx.OwnsSentinel) :
    Advances s i (.inserter t) (.inserter t') where
  ok := ⟨by simp [Tx.writes], hpending, by simp, by simp⟩
  owns := False.elim
  shares h := (hshares h).imp_right .inr
  row id h := by simp [Tx.OwnsRow, Tx.writes] at h
  loads := by simp

lemma startInsert_advances {e : PhysicalEvent} (hok : TxOk s (.inserter t))
    (h : s.startInsert i e t = some tx') : Advances s i (.inserter t) tx' := by
  unfold State.startInsert at h
  split_ifs at h with hfree
  obtain rfl := some.inj h
  exact .inserter hok.pending_above fun _ => .inr hfree.2

lemma guardStep_advances (hinv : Inv s) (hok : TxOk s (.inserter t))
    (h : s.guardStep i t = some tx') : Advances s i (.inserter t) tx' := by
  have hshares : t.guard.isSome → (Tx.inserter t).SharesSentinel := .inr
  unfold State.guardStep at h
  split at h
  case h_1 => cases h
  case h_2 e hg =>
    obtain rfl := some.inj h
    exact .inserter hok.pending_above fun _ => .inl (hshares (by simp [hg]))
  case h_3 e id todo hg =>
    split_ifs at h
    obtain rfl := some.inj h
    exact .inserter hok.pending_above fun _ => .inl (hshares (by simp [hg]))
  case h_4 e id todo hg =>
    split_ifs at h
    · exact some.inj h ▸ .finished s i _
    · obtain rfl := some.inj h
      exact .inserter hok.pending_above fun _ => .inl (hshares (by simp [hg]))
  case h_5 e hg =>
    split_ifs at h with hfrozen
    · exact some.inj h ▸ .finished s i _
    · obtain rfl := some.inj h
      refine .inserter (fun e' he' c hc => ?_) fun _ => .inl (hshares (by simp [hg]))
      rcases mem_append.mp he' with he' | he'
      · exact hok.pending_above e' he' c hc
      -- The frontier read covers the rows of all committed closes.
      · rw [mem_singleton.mp he']
        obtain ⟨hrow, hclosed⟩ := hinv.closes c hc
        by_contra hlt
        exact hfrozen (frozen_iff.mpr ⟨c.row, hrow, hclosed, not_le.mp hlt⟩)

lemma rollbackInsert_advances (hok : TxOk s (.inserter t)) :
    Advances s i (.inserter t) (.inserter { t with guard := none }) :=
  .inserter hok.pending_above fun h => .inl (.inl (h.resolve_right (by simp)))

lemma Advances.closer (hwrites : (Tx.closer id stage').writes = [])
    (hcounts : stage'.Counts s.events) (hstate : stage'.WritesState s.periods.rows id)
    (howns : (Tx.closer id stage').OwnsSentinel → (Tx.closer id stage).OwnsSentinel ∨
      NoOther s.txs i fun tx => tx.SharesSentinel ∨ tx.OwnsSentinel)
    (hloads : ∀ p, stage'.period? = some p → stage.period? = some p ∨ s.row? id = some p) :
    Advances s i (.closer id stage) (.closer id stage') where
  ok := by
    refine ⟨by simp [hwrites], by simp [Tx.pending], ?_, ?_⟩
    · rintro _ _ ⟨rfl, rfl⟩
      exact hcounts
    · rintro _ _ ⟨rfl, rfl⟩
      exact hstate
  owns := howns
  shares := False.elim
  row _ h := by simp [Tx.OwnsRow, hwrites] at h
  loads := by
    rintro _ _ p ⟨rfl, rfl⟩ hp
    exact (hloads p hp).imp_left fun hp' => ⟨stage, rfl, hp'⟩

lemma row?_eq_some (h : s.row? id = some r) :
    r ∈ s.periods.rows ∧ r.id = id :=
  ⟨List.mem_of_find?_eq_some h, by simpa using List.find?_some h⟩

lemma Advances.closerWrites {row : AccountingPeriod} (hrow : s.row? id = some r)
    (hopen : r.state ≠ .isClosed) (hfree : NoOther s.txs i (Tx.OwnsRow id))
    (hwrites : (Tx.closer id stage').writes = [(id, some row)]) (hcounts : stage'.Counts s.events)
    (hstate : stage'.WritesState s.periods.rows id)
    (howns : (Tx.closer id stage').OwnsSentinel → (Tx.closer id stage).OwnsSentinel)
    (hloads : ∀ p, stage'.period? = some p → stage.period? = some p) :
    Advances s i (.closer id stage) (.closer id stage') := by
  obtain ⟨hmem, hid⟩ := row?_eq_some hrow
  constructor
  · refine ⟨?_, by simp [Tx.pending], ?_, ?_⟩
    · intro w hw
      rw [hwrites, mem_singleton] at hw
      exact ⟨r, hmem, by rw [hid, hw], hopen⟩
    · rintro _ _ ⟨rfl, rfl⟩
      exact hcounts
    · rintro _ _ ⟨rfl, rfl⟩
      exact hstate
  · exact fun h => .inl (howns h)
  · exact False.elim
  · intro id' hid'
    rw [Tx.OwnsRow, hwrites, map_singleton, mem_singleton] at hid'
    exact .inr (hid' ▸ hfree)
  · rintro _ _ p ⟨rfl, rfl⟩ hp
    exact .inl ⟨stage, rfl, hloads p hp⟩

lemma markClosing_advances (h : s.markClosing i id = some tx') :
    Advances s i (.closer id stage) tx' := by
  unfold State.markClosing at h
  split at h
  case h_1 => exact some.inj h ▸ .finished s i _
  case h_2 r hr =>
    split_ifs at h with hfree hopen
    · obtain rfl := some.inj h
      obtain ⟨hmem, hid⟩ := row?_eq_some hr
      exact .closerWrites hr (by rw [hopen]; decide) hfree rfl trivial ⟨r, hmem, hid, rfl⟩
        False.elim (by simp [CloseStage.period?])
    · exact some.inj h ▸ .finished s i _

lemma stampClosed_advances {period : AccountingPeriod} {gate : List PhysicalEvent}
    (hcounts : gate = strictBefore s.events period.endAt)
    (h : s.stampClosed i id period gate = some tx') :
    Advances s i (.closer id (.recounted period gate)) tx' := by
  unfold State.stampClosed at h
  split at h
  case h_1 => exact some.inj h ▸ .finished s i _
  case h_2 r hr =>
    split_ifs at h with hfree hclosed
    · exact some.inj h ▸ .finished s i _
    · obtain rfl := some.inj h
      obtain ⟨hmem, hid⟩ := row?_eq_some hr
      exact .closerWrites hr hclosed hfree rfl hcounts ⟨r, hmem, hid, rfl⟩ (fun _ => trivial)
        fun _ hp => hp

lemma closeStep_advances {passes : Bool} (hok : TxOk s (.closer id stage))
    (h : s.closeStep i id passes stage = some tx') :
    Advances s i (.closer id stage) tx' := by
  have hcounts := hok.counts id stage rfl
  cases stage with
  | mutex =>
    simp only [State.closeStep] at h
    split at h
    case h_1 => exact some.inj h ▸ .finished s i _
    case h_2 r hr =>
      split_ifs at h
      · exact some.inj h ▸ .finished s i _
      · exact some.inj h ▸
          .closer rfl trivial trivial False.elim fun p hp => .inr (hp ▸ hr)
  | loaded period =>
    simp only [State.closeStep] at h
    split_ifs at h
    · exact some.inj h ▸ .finished s i _
    · exact some.inj h ▸ .closer rfl trivial trivial False.elim fun _ => .inl
  | ordered period =>
    exact some.inj h ▸ .closer rfl (List.Sublist.refl _) trivial False.elim fun _ => .inl
  | counted period gate =>
    simp only [State.closeStep] at h
    split_ifs at h
    · exact some.inj h ▸ .closer rfl hcounts trivial False.elim fun _ => .inl
    · exact markClosing_advances h
  | gated period gate =>
    simp only [State.closeStep] at h
    split_ifs at h with hfree
    exact some.inj h ▸ .closer rfl hcounts trivial (fun _ => .inr hfree) fun _ => .inl
  | sentinel period gate =>
    simp only [State.closeStep] at h
    split_ifs at h
    exact some.inj h ▸ .closer rfl hcounts trivial (fun _ => .inl trivial) fun _ => .inl
  | fenced period gate =>
    simp only [State.closeStep] at h
    split_ifs at h with hlen
    -- Events only accumulate, so equal counts are equal sets.
    · have heq : gate = strictBefore s.events period.endAt :=
        List.Sublist.eq_of_length hcounts hlen.symm
      exact some.inj h ▸ .closer rfl heq trivial (fun _ => .inl trivial) fun _ => .inl
    · exact some.inj h ▸ .finished s i _
  | recounted period gate => exact stampClosed_advances hcounts h
  | stamped period gate row | marked row => cases h

lemma updateRow_advances {new : Option AccountingPeriod} (hok : TxOk s (.updater writes))
    (h : s.updateRow i writes id new = some tx') : Advances s i (.updater writes) tx' := by
  unfold State.updateRow at h
  split_ifs at h with hcond
  obtain ⟨hfree, old, hold, hallowed⟩ := hcond
  obtain rfl := some.inj h
  refine ⟨⟨?_, by simp [Tx.pending], by simp, by simp⟩, False.elim, False.elim, ?_, by simp⟩
  · intro w hw
    rcases mem_cons.mp hw with rfl | hw
    · unfold State.visibleRow at hold
      split at hold
      -- A row it has written before was open then.
      case h_1 w' hw' =>
        obtain ⟨r, hr, hrid, hropen⟩ := hok.writes_open w' (List.mem_of_find?_eq_some hw')
        exact ⟨r, hr, hrid.trans (by simpa using List.find?_some hw'), hropen⟩
      case h_2 =>
        obtain ⟨hmem, hid⟩ := row?_eq_some hold
        refine ⟨old, hmem, hid, fun hclosed => ?_⟩
        cases new <;> simp [State.TransitionAllowed, hclosed] at hallowed
    · exact hok.writes_open w (mem_of_mem_filter hw)
  · intro id' hid'
    rcases mem_cons.mp hid' with rfl | hid'
    · exact .inr hfree
    · obtain ⟨w, hw, rfl⟩ := List.mem_map.mp hid'
      exact .inl (List.mem_map_of_mem (mem_of_mem_filter hw))

end Statements

/-! ### Commits -/

lemma mem_applyWrites (hr : r ∈ rows) (h : r.id ∉ writes.map (·.1)) :
    r ∈ applyWrites rows writes := by
  have hnone : writes.find? (·.1 = r.id) = none := by
    rw [List.find?_eq_none]
    intro w hw hid
    exact h (of_decide_eq_true hid ▸ List.mem_map_of_mem hw)
  exact mem_filterMap.mpr ⟨r, hr, by rw [hnone]⟩

lemma tableOf_eq_some {periods : PeriodTable} (h : tableOf rows = some periods) :
    periods.rows = rows := by
  unfold tableOf at h
  split_ifs at h
  rw [← some.inj h]

structure Commits (s : State) (i : ℕ) (tx : Tx) (s' : State) : Prop where
  rows : s'.periods.rows = applyWrites s.periods.rows tx.writes
  events : s'.events = s.events ++ tx.pending
  closes : s'.closes = s.closes ++ tx.close s.events
  txs : s'.txs = s.txs.set i .finished

lemma commit_eq_some (h : s.commit i tx = some s') :
    Commits s i tx s' := by
  unfold State.commit at h
  split_ifs at h
  obtain ⟨periods, hperiods, rfl⟩ := Option.map_eq_some_iff.mp h
  exact ⟨tableOf_eq_some hperiods, rfl, rfl, rfl⟩

lemma strictBefore_append (events new : List PhysicalEvent) (endAt : ℤ) :
    strictBefore (events ++ new) endAt = strictBefore events endAt ++ strictBefore new endAt :=
  filter_append ..

lemma CloseStage.Counts.append {new : List PhysicalEvent} (h : stage.Counts events) (id : ℤ)
    (hnew : (Tx.closer id stage).OwnsSentinel → new = []) : stage.Counts (events ++ new) := by
  cases stage with
  | mutex | loaded | ordered | marked => trivial
  | counted p g | gated p g | sentinel p g | fenced p g =>
    show g.Sublist _
    rw [strictBefore_append]
    exact List.Sublist.trans h (sublist_append_left _ _)
  | recounted p g | stamped p g _ =>
    rw [hnew trivial, append_nil]
    exact h

lemma Tx.pending_eq_nil (h : ¬ tx.SharesSentinel) : tx.pending = [] := by
  cases tx with
  | inserter t => exact not_not.mp fun hne => h (.inl hne)
  | closer | updater | finished => rfl

lemma Commits.closed_mem (hc : Commits s i tx s') (hok : TxOk s tx) (hr : r ∈ s.periods.rows)
    (hclosed : r.state = .isClosed) : r ∈ s'.periods.rows := by
  rw [hc.rows]
  refine mem_applyWrites hr fun hid => ?_
  obtain ⟨w, hw, hwid⟩ := List.mem_map.mp hid
  obtain ⟨r', hr', hid', hopen⟩ := hok.writes_open w hw
  have heq := inj_on_of_nodup_map s.periods.ids_nodup hr' hr (hid'.trans hwid)
  exact hopen (heq ▸ hclosed)

lemma Tx.mem_close (h : c ∈ tx.close events) :
    ∃ id p g row, tx = .closer id (.stamped p g row) ∧
      c = ⟨row, g, strictBefore events row.endAt⟩ := by
  cases tx with
  | closer id stage =>
    cases stage with
    | stamped p g row => exact ⟨id, p, g, row, rfl, mem_singleton.mp h⟩
    | _ => cases h
  | _ => cases h

lemma Commits.stamped_mem (hc : Commits s i tx s') (hok : TxOk s tx)
    (hmem : c ∈ tx.close s.events) :
    c.row ∈ s'.periods.rows ∧ c.row.state = .isClosed ∧ tx.OwnsSentinel := by
  obtain ⟨id, p, g, row, rfl, rfl⟩ := Tx.mem_close hmem
  obtain ⟨r, hr, hid, hrow⟩ := hok.writes_state id _ rfl
  refine ⟨?_, by rw [hrow], trivial⟩
  rw [hc.rows]
  exact mem_filterMap.mpr ⟨r, hr, by simp [Tx.writes, hid]⟩

theorem Inv.commit (h : Inv s) (hi : s.txs[i]? = some tx) (hc : Commits s i tx s') : Inv s' := by
  have hok := h.tx i tx hi
  have hothers : ∀ (j : ℕ) u, s'.txs[j]? = some u →
      u = .finished ∨ (j ≠ i ∧ s.txs[j]? = some u) := by
    intro j u hj
    rw [hc.txs] at hj
    rcases getElem?_set_cases hj with ⟨-, rfl⟩ | hold
    · exact .inl rfl
    · exact .inr hold
  have hlocks := h.locks_set hi .finished False.elim False.elim fun id hid => by
    simp [Tx.OwnsRow, Tx.writes] at hid
  rw [← hc.txs] at hlocks
  refine ⟨?_, hlocks.1, fun j k u v hjk hj hk id => hlocks.2 id j k u v hjk hj hk, ?_⟩
  · intro j u hj
    rcases hothers j u hj with rfl | ⟨hne, hj⟩
    · exact .finished s'
    have hu := h.tx j u hj
    -- Rows that another transaction writes are not written by this one.
    have hrow : ∀ r ∈ s.periods.rows, u.OwnsRow r.id → r ∈ s'.periods.rows := by
      intro r hr howns
      rw [hc.rows]
      exact mem_applyWrites hr (h.rows _ _ _ _ hne hj hi _ howns)
    constructor
    · intro w hw
      obtain ⟨r, hr, hid, hopen⟩ := hu.writes_open w hw
      exact ⟨r, hrow r hr (hid ▸ List.mem_map_of_mem hw), hid, hopen⟩
    · intro e he c hcl
      rw [hc.closes, mem_append] at hcl
      rcases hcl with hcl | hcl
      · exact hu.pending_above e he c hcl
      -- A close that commits owns the sentinel, so nothing is pending elsewhere.
      · have howns := (hc.stamped_mem hok hcl).2.2
        have hnot := h.sentinel _ _ _ _ (Ne.symm hne) hi hj howns
        rw [Tx.pending_eq_nil fun hs => hnot (.inl hs)] at he
        cases he
    · rintro id stage rfl
      rw [hc.events]
      refine (hu.counts id stage rfl).append id fun howns => ?_
      exact Tx.pending_eq_nil fun hs => h.sentinel _ _ _ _ hne hj hi howns (.inl hs)
    · rintro id stage rfl
      have hstate := hu.writes_state id stage rfl
      cases stage with
      | stamped | marked =>
        obtain ⟨r, hr, hid, heq⟩ := hstate
        exact ⟨r, hrow r hr (by simp [Tx.OwnsRow, Tx.writes, hid]), hid, heq⟩
      | _ => trivial
  · intro c hcl
    rw [hc.closes, mem_append] at hcl
    rcases hcl with hcl | hcl
    · obtain ⟨hmem, hclosed⟩ := h.closes c hcl
      exact ⟨hc.closed_mem hok hmem hclosed, hclosed⟩
    · obtain ⟨hmem, hclosed, -⟩ := hc.stamped_mem hok hcl
      exact ⟨hmem, hclosed⟩

/-! ### Runs -/

def Tx.Begins (tx : Tx) : Prop :=
  tx = .inserter {} ∨ (∃ id, tx = .closer id .mutex) ∨ tx = .updater []

theorem exec?_cases (h : Inv s) (hex : s.exec? a = some s') :
    (∃ tx, tx.Begins ∧ s' = { s with txs := s.txs ++ [tx] }) ∨
    (∃ i tx tx', s.txs[i]? = some tx ∧ Advances s i tx tx' ∧ s' = s.setTx i tx') ∨
    (∃ i tx, a = .commit i ∧ s.txs[i]? = some tx ∧ Commits s i tx s') := by
  cases a with
  | beginInsert => exact .inl ⟨_, .inl rfl, (some.inj hex).symm⟩
  | beginClose id =>
    simp only [State.exec?] at hex
    split_ifs at hex
    exact .inl ⟨_, .inr (.inl ⟨id, rfl⟩), (some.inj hex).symm⟩
  | beginUpdate => exact .inl ⟨_, .inr (.inr rfl), (some.inj hex).symm⟩
  | insert i e =>
    simp only [State.exec?] at hex
    split at hex
    case h_1 t ht =>
      obtain ⟨tx', htx, rfl⟩ := Option.map_eq_some_iff.mp hex
      exact .inr (.inl ⟨i, _, tx', ht, startInsert_advances (h.tx i _ ht) htx, rfl⟩)
    case h_2 => cases hex
  | guard i =>
    simp only [State.exec?] at hex
    split at hex
    case h_1 t ht =>
      obtain ⟨tx', htx, rfl⟩ := Option.map_eq_some_iff.mp hex
      exact .inr (.inl ⟨i, _, tx', ht, guardStep_advances h (h.tx i _ ht) htx, rfl⟩)
    case h_2 => cases hex
  | rollbackInsert i =>
    simp only [State.exec?] at hex
    split at hex
    case h_1 t ht =>
      exact .inr (.inl ⟨i, _, _, ht, rollbackInsert_advances (h.tx i _ ht),
        (some.inj hex).symm⟩)
    case h_2 => cases hex
  | close i passes =>
    simp only [State.exec?] at hex
    split at hex
    case h_1 id stage ht =>
      obtain ⟨tx', htx, rfl⟩ := Option.map_eq_some_iff.mp hex
      exact .inr (.inl ⟨i, _, tx', ht, closeStep_advances (h.tx i _ ht) htx, rfl⟩)
    case h_2 => cases hex
  | update i id new =>
    simp only [State.exec?] at hex
    split at hex
    case h_1 ws ht =>
      obtain ⟨tx', htx, rfl⟩ := Option.map_eq_some_iff.mp hex
      exact .inr (.inl ⟨i, _, tx', ht, updateRow_advances (h.tx i _ ht) htx, rfl⟩)
    case h_2 => cases hex
  | commit i =>
    simp only [State.exec?] at hex
    split at hex
    case h_1 tx ht => exact .inr (.inr ⟨i, tx, rfl, ht, commit_eq_some hex⟩)
    case h_2 => cases hex
  | abort i =>
    simp only [State.exec?] at hex
    split at hex
    case h_1 tx ht =>
      exact .inr (.inl ⟨i, tx, _, ht, .finished s i tx, (some.inj hex).symm⟩)
    case h_2 => cases hex

lemma Tx.Begins.holds_nothing (h : tx.Begins) : tx.writes = [] ∧ tx.pending = [] ∧
    ¬ tx.SharesSentinel ∧ ¬ tx.OwnsSentinel ∧
    ∀ id stage, tx = .closer id stage → stage = .mutex := by
  rcases h with rfl | ⟨id, rfl⟩ | rfl <;> simp [Tx.writes, Tx.pending, Tx.SharesSentinel,
    Tx.OwnsSentinel]

lemma Inv.begin (h : Inv s) (hb : tx.Begins) :
    Inv { s with txs := s.txs ++ [tx] } := by
  obtain ⟨hwrites, hpending, hshares, howns, hstage⟩ := hb.holds_nothing
  have hunowned : ∀ id, ¬ tx.OwnsRow id := fun id hid => by simp [Tx.OwnsRow, hwrites] at hid
  refine ⟨?_, ?_, fun j k u v hjk hj hk id => ?_, h.closes⟩
  · intro j u hj
    rcases getElem?_append_singleton_cases hj with ⟨-, rfl⟩ | ⟨-, hj⟩
    · refine ⟨by simp [hwrites], by simp [hpending], ?_, ?_⟩
      · intro id stage hu
        rw [hstage id stage hu]
        trivial
      · intro id stage hu
        rw [hstage id stage hu]
        trivial
    · have hok := h.tx j u hj
      exact ⟨hok.writes_open, hok.pending_above, hok.counts, hok.writes_state⟩
  · exact Excludes.append h.sentinel (fun ho => absurd ho howns)
      fun hh => absurd hh (not_or.mpr ⟨hshares, howns⟩)
  · have hrows : Exclusive s.txs (Tx.OwnsRow id) := fun j k u v hjk hj hk =>
      h.rows j k u v hjk hj hk id
    exact hrows.append (fun ho => absurd ho (hunowned id)) j k u v hjk hj hk

lemma Inv.exec (h : Inv s) (hex : s.exec? a = some s') : Inv s' := by
  rcases exec?_cases h hex with ⟨tx, hb, rfl⟩ | ⟨i, tx, tx', hi, ha, rfl⟩ | ⟨i, tx, -, hi, hc⟩
  · exact h.begin hb
  · exact h.setTx hi ha
  · exact h.commit hi hc

lemma run_inv (periods : PeriodTable) (events : List PhysicalEvent) (actions : List Action) :
    Inv (run periods events actions) :=
  Machine.run_invariant (fun _ _ _ hex h => h.exec hex) ⟨by simp, by simp, by simp, by simp⟩ actions

/-! ### The end date a close loaded -/

def Tx.KeepsEnd (rows : List AccountingPeriod) : Tx → Prop
  | .closer id stage => ∀ p ∈ stage.period?, ∀ r ∈ rows, r.id = id → r.endDate = p.endDate
  | _ => True

/-- The action does not commit an update that moves the end date of a period which a close in flight
has loaded. -/
def KeepsLoadedEnd (s : State) : Action → Prop
  | .commit i =>
    match s.txs[i]? with
    | some (.updater ws) => ∀ tx ∈ s.txs, tx.KeepsEnd (applyWrites s.periods.rows ws)
    | _ => True
  | _ => True

/-- Every close in flight has the end date of its row, and every committed one froze what it
counted. -/
structure Kept (s : State) : Prop where
  inv : Inv s
  ends : ∀ tx ∈ s.txs, tx.KeepsEnd s.periods.rows
  closes : ∀ c ∈ s.closes, c.atStamp = c.atGate

lemma TxOk.exists_row_of_write (hok : TxOk s tx) (hnot : ∀ ws, tx ≠ .updater ws) {w : RowWrite}
    (hw : w ∈ tx.writes) :
    ∃ r ∈ s.periods.rows, r.id = w.1 ∧ ∃ state, w.2 = some { r with state } := by
  cases tx with
  | closer id stage =>
    cases stage with
    | stamped _ _ row | marked row =>
      obtain ⟨r, hr, hid, hrow⟩ := hok.writes_state id _ rfl
      obtain rfl := mem_singleton.mp hw
      exact ⟨r, hr, hid, _, by rw [hrow]⟩
    | _ => cases hw
  | updater ws => exact absurd rfl (hnot ws)
  | inserter | finished => cases hw

lemma endDate_of_mem_applyWrites (hok : TxOk s tx) (hnot : ∀ ws, tx ≠ .updater ws)
    {r' : AccountingPeriod} (hr' : r' ∈ applyWrites s.periods.rows tx.writes) :
    ∃ r ∈ s.periods.rows, r.id = r'.id ∧ r.endDate = r'.endDate := by
  obtain ⟨r, hr, heq⟩ := mem_filterMap.mp hr'
  split at heq
  case h_2 => exact ⟨r, hr, by rw [some.inj heq], by rw [some.inj heq]⟩
  case h_1 w hw =>
    have hmem := List.mem_of_find?_eq_some hw
    have hid : w.1 = r.id := by simpa using List.find?_some hw
    obtain ⟨r0, hr0, hid0, state, hw2⟩ := hok.exists_row_of_write hnot hmem
    have hr₀r := inj_on_of_nodup_map s.periods.ids_nodup hr0 hr (hid0.trans hid)
    rw [hw2] at heq
    rw [← some.inj heq]
    exact ⟨r0, hr0, rfl, rfl⟩

lemma Kept.commit (h : Kept s) (hi : s.txs[i]? = some tx) (hcond : KeepsLoadedEnd s (.commit i))
    (hc : Commits s i tx s') : Kept s' := by
  have hok := h.inv.tx i tx hi
  refine ⟨h.inv.commit hi hc, fun u hu => ?_, fun c hcl => ?_⟩
  · have hold : u = .finished ∨ u ∈ s.txs := by
      rw [hc.txs] at hu
      exact (mem_or_eq_of_mem_set hu).symm
    rcases hold with rfl | hu
    · trivial
    rw [hc.rows]
    by_cases hupd : ∃ ws, tx = .updater ws
    · obtain ⟨ws, rfl⟩ := hupd
      simp only [KeepsLoadedEnd, hi] at hcond
      exact hcond u hu
    · have hends := h.ends u hu
      cases u with
      | closer id stage =>
        intro p hp r' hr' hid
        obtain ⟨r, hr, hrid, hrend⟩ :=
          endDate_of_mem_applyWrites hok (fun ws hws => hupd ⟨ws, hws⟩) hr'
        rw [← hrend]
        exact hends p hp r hr (hrid.trans hid)
      | inserter | updater | finished => trivial
  · rw [hc.closes, mem_append] at hcl
    rcases hcl with hcl | hcl
    · exact h.closes c hcl
    · have hends := h.ends tx (mem_of_getElem? hi)
      obtain ⟨id, p, g, row, rfl, rfl⟩ := Tx.mem_close hcl
      obtain ⟨r, hr, hid, hrow⟩ := hok.writes_state id _ rfl
      have hend : row.endAt = p.endAt := by
        rw [hrow, AccountingPeriod.endAt, AccountingPeriod.endAt, ← hends p rfl r hr hid]
      rw [hend]
      exact (hok.counts id _ rfl).symm

lemma Kept.step (h : Kept s) (hcond : KeepsLoadedEnd s a) :
    Kept (Machine.step State.exec? s a) := by
  rcases hex : s.exec? a with _ | s'
  · rwa [Machine.step_of_none hex]
  rw [Machine.step_of_some hex]
  rcases exec?_cases h.inv hex with ⟨tx, hb, rfl⟩ | ⟨i, tx, tx', hi, ha, rfl⟩ | ⟨i, tx, rfl, hi, hc⟩
  · refine ⟨h.inv.begin hb, fun u hu => ?_, h.closes⟩
    rcases mem_append.mp hu with hu | hu
    · exact h.ends u hu
    · rw [mem_singleton.mp hu]
      rcases hb with rfl | ⟨id, rfl⟩ | rfl
      · trivial
      · intro p hp
        cases hp
      · trivial
  · refine ⟨h.inv.setTx hi ha, fun u hu => ?_, h.closes⟩
    rcases mem_or_eq_of_mem_set hu with hu | rfl
    · exact h.ends u hu
    · cases u with
      | closer id stage =>
        intro p hp r hr hid
        rcases ha.loads id stage p rfl hp with ⟨stage', rfl, hp'⟩ | hrow
        · exact h.ends _ (mem_of_getElem? hi) p hp' r hr hid
        · obtain ⟨hmem, hpid⟩ := row?_eq_some hrow
          rw [inj_on_of_nodup_map s.periods.ids_nodup hr hmem (hid.trans hpid.symm)]
      | inserter | updater | finished => trivial
  · exact h.commit hi hcond hc

/-! ### Closed history -/

/-- `s'` is a later state than `s`: its closed rows and closes are still there, and no event before
the end of one of its closes was committed since. -/
structure Later (s s' : State) : Prop where
  closed : ∀ r ∈ s.periods.rows, r.state = .isClosed → r ∈ s'.periods.rows
  events : ∃ new, s'.events = s.events ++ new ∧
    ∀ e ∈ new, ∀ c ∈ s.closes, c.row.endAt ≤ e.postedAt
  closes : s.closes ⊆ s'.closes

lemma Later.withTxs (s : State) (txs : List Tx) : Later s { s with txs } :=
  ⟨fun _ hr _ => hr, ⟨[], by simp, by simp⟩, List.Subset.refl _⟩

lemma Later.trans {s1 s2 s3 : State} (h : Later s1 s2) (h' : Later s2 s3) : Later s1 s3 := by
  obtain ⟨new, hnew, habove⟩ := h.events
  obtain ⟨new', hnew', habove'⟩ := h'.events
  refine ⟨fun r hr hclosed => h'.closed r (h.closed r hr hclosed) hclosed,
    ⟨new ++ new', by rw [hnew', hnew, append_assoc], fun e he c hc => ?_⟩,
    List.Subset.trans h.closes h'.closes⟩
  rcases mem_append.mp he with he | he
  · exact habove e he c hc
  · exact habove' e he c (h.closes hc)

lemma Inv.later (h : Inv s) (hex : s.exec? a = some s') :
    Later s s' := by
  rcases exec?_cases h hex with ⟨tx, -, rfl⟩ | ⟨i, tx, tx', -, -, rfl⟩ | ⟨i, tx, -, hi, hc⟩
  · exact Later.withTxs s _
  · exact Later.withTxs s _
  · have hok := h.tx i tx hi
    refine ⟨fun r hr hclosed => hc.closed_mem hok hr hclosed,
      ⟨tx.pending, hc.events, hok.pending_above⟩, ?_⟩
    rw [hc.closes]
    exact subset_append_left _ _

lemma run_later (periods : PeriodTable) (events : List PhysicalEvent) (before after : List Action) :
    Later (run periods events before) (run periods events (before ++ after)) := by
  have hinv := run_inv periods events before
  have hrun : Inv (run periods events (before ++ after)) ∧
      Later (run periods events before) (run periods events (before ++ after)) := by
    unfold run
    rw [Machine.run_append]
    exact Machine.run_invariant (P := fun s => Inv s ∧ Later (run periods events before) s)
      (fun s a s' hex h => ⟨h.1.exec hex, h.2.trans (h.1.later hex)⟩) ⟨hinv, Later.withTxs _ _⟩
      after
  exact hrun.2

lemma Later.closedFrontier_le (h : Later s s') {f : ℤ} (hf : f ∈ closedFrontier s.periods.rows) :
    ∃ f' ∈ closedFrontier s'.periods.rows, f ≤ f' := by
  -- the period the old frontier ends is still closed
  obtain ⟨p, hp, rfl⟩ := List.mem_map.mp (List.max?_mem hf)
  obtain ⟨hmem, hclosed⟩ := mem_closedPeriods.mp hp
  have hfrozen : Frozen s'.periods.rows (p.endAt - 1) :=
    frozen_iff.mpr ⟨p, h.closed p hmem hclosed, hclosed, by omega⟩
  obtain ⟨f', hf', hlt⟩ := hfrozen
  exact ⟨f', hf', by omega⟩

/-- **Closed history is frozen.** In a run the closed frontier does not fall, and no event before
the end of a committed close is committed. If no committed update moves the end date of a period
that a close in flight has loaded, every close froze exactly the FIFO/LIFO events it counted at gate
entry. -/
theorem run_closed_history (periods : PeriodTable) (events : List PhysicalEvent)
    (before after : List Action) :
    (∀ f ∈ closedFrontier (run periods events before).periods.rows,
      ∃ f' ∈ closedFrontier (run periods events (before ++ after)).periods.rows, f ≤ f') ∧
    (∃ new, (run periods events (before ++ after)).events =
        (run periods events before).events ++ new ∧
      ∀ e ∈ new, ∀ c ∈ (run periods events before).closes, c.row.endAt ≤ e.postedAt) ∧
    (Machine.Throughout State.exec? KeepsLoadedEnd { periods, events } before →
      ∀ c ∈ (run periods events before).closes, c.atStamp = c.atGate) := by
  have hlater := run_later periods events before after
  refine ⟨fun f hf => hlater.closedFrontier_le hf, hlater.events, fun hkeeps => ?_⟩
  have hkept : Kept (run periods events before) :=
    Machine.run_induction (fun _ _ h hcond => h.step hcond)
      ⟨⟨by simp, by simp, by simp, by simp⟩, by simp, by simp⟩ before hkeeps
  exact hkept.closes

/-- A FIFO receipt on the first day, and one on the second. -/
def twoDays : List PhysicalEvent := [⟨1, 5, true⟩, ⟨2, dayStart 1 + 5, true⟩]

/-- A close of period 7 up to its count at gate entry. -/
def closeCounts : List Action := [.beginClose 7, .close 0 true, .close 0 true, .close 0 true]

/-- The gate, the fence, the stamp and the commit. -/
def closeStamps : List Action :=
  [.close 0 true, .close 0 true, .close 0 true, .close 0 true, .close 0 true, .commit 0]

def lateInsert : List Action := [.beginInsert, .insert 1 ⟨3, dayStart 1 + 9, true⟩, .guard 1,
  .guard 1, .commit 1]

theorem run_lateInsert_closed_history :
    (run .dayZero twoDays (closeCounts ++ closeStamps)).closes.map (·.atGate) = [[⟨1, 5, true⟩]] ∧
    (run .dayZero twoDays (closeCounts ++ closeStamps ++ lateInsert)).events.length = 3 ∧
    ∀ c ∈ (run .dayZero twoDays (closeCounts ++ closeStamps)).closes, c.atStamp = c.atGate :=
  ⟨by decide, by decide, (run_closed_history .dayZero twoDays (closeCounts ++ closeStamps)
    lateInsert).2.2 ⟨trivial, trivial, trivial, trivial, trivial, trivial, trivial, trivial,
      trivial, trivial, trivial⟩⟩

/-- An update that marks period 7 as closing and moves its end to the second day: the transition
guard looks at the states only. -/
def moveEnd : List Action := [.beginUpdate, .update 1 7 (some ⟨7, 0, 1, .isClosing, by decide⟩),
  .commit 1]

/-- The end of a period moves between the count at gate entry and the stamp, and the close freezes
an event it did not count. -/
theorem run_movedEnd :
    (run .dayZero twoDays (closeCounts ++ moveEnd ++ closeStamps)).closes =
      [{ row := ⟨7, 0, 1, .isClosed, by decide⟩
         atGate := [⟨1, 5, true⟩]
         atStamp := [⟨1, 5, true⟩, ⟨2, dayStart 1 + 5, true⟩] }] := by
  decide

end Acct.V32.Fence
