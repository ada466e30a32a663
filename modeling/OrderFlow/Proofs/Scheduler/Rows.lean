import OrderFlow.Proofs.Scheduler.Pool
import OrderFlow.Proofs.Scheduler.TickHistory

/-!
# The rows of a growing journal

`Run.rows` lists the ticks of a run with the instants at which they were called and
ended.  A longer journal keeps the rows of the shorter one, fills in the ends of ticks
that have ended since, and adds a row for each tick called since.  Whatever is
written bears the instant at which it is written, so nothing that a row says of
earlier instants ever changes.
-/

namespace OrderFlow

variable {σ τ ε : Type}

namespace Run

/-- The tick that an entry says was called, with what some entries say of its end. -/
def rowOf? (journal : List (Entry ε)) : Entry ε → Option Row
  | .called tick now => some ⟨tick, now, endOf? tick journal⟩
  | _ => none

/-- The ticks called by some entries, with what a journal says of their ends. -/
def rowsIn (journal entries : List (Entry ε)) : List Row :=
  entries.filterMap (rowOf? journal)

theorem rows_eq (run : Run σ τ ε) : run.rows = rowsIn run.entries run.entries := by
  apply congrArg (List.filterMap · run.entries)
  funext entry
  cases entry <;> rfl

/-- A row with the end that more entries say its tick has come to. -/
def Row.extend (notes : List (Entry ε)) (row : Row) : Row :=
  { row with ending := row.ending.or (endOf? row.tick notes) }

/-- Whether the tick of a row has not ended by an instant. -/
def Row.unfinishedAt (instant : Nat) (row : Row) : Bool :=
  match row.ending with
  | none => true
  | some (ended, _) => instant < ended

theorem endOf?_append (tick : Nat) (xs ys : List (Entry ε)) :
    endOf? tick (xs ++ ys) = (endOf? tick xs).or (endOf? tick ys) :=
  List.findSome?_append

theorem rowsIn_append (journal xs ys : List (Entry ε)) :
    rowsIn journal (xs ++ ys) = rowsIn journal xs ++ rowsIn journal ys :=
  List.filterMap_append

theorem rowsIn_extend (journal notes entries : List (Entry ε)) :
    rowsIn (journal ++ notes) entries = (rowsIn journal entries).map (Row.extend notes) := by
  rw [rowsIn, rowsIn, List.map_filterMap]
  congr 1
  funext entry
  cases entry with
  | called tick now => simp [rowOf?, Row.extend, endOf?_append]
  | _ => rfl

theorem map_tick_rowsIn (journal entries : List (Entry ε)) :
    (rowsIn journal entries).map Row.tick = Entry.calledIn entries := by
  rw [rowsIn, Entry.calledIn, List.map_filterMap]
  congr 1
  funext entry
  cases entry <;> rfl

theorem mem_of_endOf? {tick ended : Nat} {how : Ending} {entries : List (Entry ε)}
    (h : endOf? tick entries = some (ended, how)) : .ended tick ended how ∈ entries := by
  obtain ⟨entry, hentry, hsome⟩ := List.exists_of_findSome?_eq_some h
  cases entry with
  | ended n now other =>
      by_cases hn : n = tick
      · simp only [hn, if_true, Option.some.injEq, Prod.mk.injEq] at hsome
        obtain ⟨rfl, rfl⟩ := hsome
        exact hn ▸ hentry
      · simp [hn] at hsome
  | _ => cases hsome

theorem endOf?_eq_none_iff {tick : Nat} {entries : List (Entry ε)} :
    endOf? tick entries = none ↔ tick ∉ (Entry.endedIn entries).map Prod.fst := by
  induction entries with
  | nil => simp [endOf?]
  | cons entry rest ih =>
      have hstep : endOf? tick (entry :: rest) =
          (endOf? tick [entry]).or (endOf? tick rest) := endOf?_append tick [entry] rest
      rw [hstep, Option.or_eq_none_iff, ih]
      cases entry with
      | ended n now how =>
          by_cases hn : n = tick
          · simp [endOf?, hn]
          · simp [endOf?, hn, Ne.symm hn]
      | _ => simp [endOf?]

/-! ## What later entries change -/

/-- The instant that an entry bears. -/
def instantOf? : Entry ε → Option Nat
  | .called _ now => some now
  | .ended _ now _ => some now
  | _ => none

/-- The instants that some entries bear are all the same. -/
def WrittenAt (now : Nat) (notes : List (Entry ε)) : Prop :=
  ∀ instant ∈ notes.filterMap instantOf?, instant = now

section Extend

variable {now instant : Nat} {notes : List (Entry ε)}

theorem WrittenAt.ended_eq {tick ended : Nat} {how : Ending} (h : WrittenAt now notes)
    (hend : endOf? tick notes = some (ended, how)) : ended = now :=
  h ended (List.mem_filterMap.mpr ⟨_, mem_of_endOf? hend, rfl⟩)

/-- What ends now has not ended at any earlier instant. -/
theorem Row.unfinishedAt_extend (hnotes : WrittenAt now notes) (hinstant : instant < now)
    (row : Row) : (row.extend notes).unfinishedAt instant = row.unfinishedAt instant := by
  rcases hending : row.ending with _ | ⟨ended, how⟩
  · rcases hnew : endOf? row.tick notes with _ | ⟨ended, how⟩
    · simp [Row.unfinishedAt, Row.extend, hending, hnew]
    · have hended := hnotes.ended_eq hnew
      simp [Row.unfinishedAt, Row.extend, hending, hnew, hended, hinstant]
  · simp [Row.unfinishedAt, Row.extend, hending]

/-- A tick that has ended by an instant never becomes unfinished again. -/
theorem Row.unfinishedAt_of_extend {row : Row}
    (h : (row.extend notes).unfinishedAt instant = true) : row.unfinishedAt instant = true := by
  rcases hending : row.ending with _ | ⟨ended, how⟩
  · simp [Row.unfinishedAt, hending]
  · simpa [Row.unfinishedAt, Row.extend, hending] using h

theorem countP_unfinishedAt_extend (hnotes : WrittenAt now notes) (hinstant : instant < now)
    (rows : List Row) :
    (rows.map (Row.extend notes)).countP (Row.unfinishedAt instant) =
      rows.countP (Row.unfinishedAt instant) := by
  rw [List.countP_map]
  exact List.countP_congr fun row _ => by simp [Row.unfinishedAt_extend hnotes hinstant]

theorem countP_unfinishedAt_extend_le (instant : Nat) (notes : List (Entry ε))
    (rows : List Row) :
    (rows.map (Row.extend notes)).countP (Row.unfinishedAt instant) ≤
      rows.countP (Row.unfinishedAt instant) := by
  rw [List.countP_map]
  exact List.countP_mono_left fun row _ => Row.unfinishedAt_of_extend

end Extend

variable {schedule : Schedule} {work : Work σ τ ε} {run next : Run σ τ ε}

/-! ## The rows of the next run -/

theorem rows_append {notes : List (Entry ε)} (hentries : next.entries = run.entries ++ notes) :
    next.rows = run.rows.map (Row.extend notes) ++ rowsIn next.entries notes := by
  rw [rows_eq, rows_eq, hentries, rowsIn_append, rowsIn_extend]

theorem length_rows (h : run.Reachable schedule work) :
    run.rows.length = run.summary.ticks := by
  have hlength := congrArg List.length h.called
  rwa [← map_tick_rowsIn run.entries, ← rows_eq, List.length_map, List.length_range']
    at hlength

theorem tick_of_rows {earlier later : List Row} {row : Row}
    (h : run.Reachable schedule work) (hrows : run.rows = earlier ++ row :: later) :
    row.tick = earlier.length + 1 := by
  have hticks := h.called
  rw [← map_tick_rowsIn run.entries, ← rows_eq, hrows] at hticks
  have hlt : earlier.length < run.summary.ticks := by
    rw [← length_rows h, hrows]
    simp
  have hget := congrArg (fun ticks => ticks[earlier.length]?) hticks
  simp [hlt] at hget
  omega

/-! ## What is written bears its instant -/

theorem writtenAt_did (now tick : Nat) (acts : List ε) :
    WrittenAt now (acts.map (Entry.did tick)) := by
  simp [WrittenAt, instantOf?]

theorem writtenAt_recordNotes (now tick : Nat) (how : Ending) :
    WrittenAt now (recordNotes tick how : List (Entry ε)) := by
  cases how <;> simp [WrittenAt, recordNotes, endingEvents, instantOf?]

theorem WrittenAt.append {now : Nat} {xs ys : List (Entry ε)} (hxs : WrittenAt now xs)
    (hys : WrittenAt now ys) : WrittenAt now (xs ++ ys) := by
  intro instant hmem
  rw [List.filterMap_append, List.mem_append] at hmem
  exact hmem.elim (hxs instant) (hys instant)

theorem writtenAt_ended (now tick : Nat) (how : Ending) :
    WrittenAt now [(.ended tick now how : Entry ε)] := by
  simp [WrittenAt, instantOf?]

theorem writtenAt_called (now tick : Nat) {notes : List (Entry ε)} (h : WrittenAt now notes) :
    WrittenAt now (.called tick now :: notes) := by
  simpa [WrittenAt, instantOf?] using h

theorem writtenAt_abortNotes (work : Work σ τ ε) (now : Nat) (running : List (Nat × τ)) :
    WrittenAt now (abortNotes work now running) := by
  induction running with
  | nil => simp [WrittenAt, abortNotes]
  | cons entry rest ih =>
      exact ((writtenAt_did now _ _).append (writtenAt_ended now _ _)).append ih

theorem writtenAt_cancelNotes (run : Run σ τ ε) : WrittenAt run.now run.cancelNotes := by
  unfold cancelNotes
  split <;> simp [WrittenAt, instantOf?]

/-- Whatever a transition writes bears the instant at which it happens, and only a ticker that
holds a permit calls a tick. -/
theorem Transition.written {action : Action}
    (h : Transition schedule work run action next) :
    ∃ notes, next.entries = run.entries ++ notes ∧ WrittenAt run.now notes ∧
      (Entry.calledIn notes = [] ∨
        run.phase = .holdingPermit ∧ Entry.calledIn notes = [run.summary.ticks + 1]) := by
  cases h with
  | advance move =>
      exact ⟨_, entries_mk_journalWith .., by simp [WrittenAt, instantOf?], Or.inl (by simp)⟩
  | call phase called =>
      exact ⟨_, entries_mk_journalWith .., writtenAt_called _ _ (writtenAt_did _ _ _),
        Or.inr ⟨phase, by simp⟩⟩
  | @callPanics effect message phase called =>
      have hnotes := (writtenAt_did run.now (run.summary.ticks + 1) effect.acts).append
        (writtenAt_abortNotes work run.now run.running)
      exact ⟨_, entries_mk_journalWith .., writtenAt_called _ _ hnotes,
        Or.inr ⟨phase, by simp⟩⟩
  | collect phase found =>
      exact ⟨_, entries_mk_journalWith .., writtenAt_recordNotes _ _ _, Or.inl (by simp)⟩
  | finish running polled ending =>
      exact ⟨_, entries_mk_journalWith ..,
        (writtenAt_did _ _ _).append (writtenAt_ended _ _ _), Or.inl (by simp)⟩
  | drop running polled fired =>
      exact ⟨_, entries_mk_journalWith ..,
        (writtenAt_did _ _ _).append (writtenAt_ended _ _ _), Or.inl (by simp)⟩
  | keep running polled unfired =>
      exact ⟨_, entries_mk_journalWith .., writtenAt_did _ _ _, Or.inl (by simp)⟩
  | cancel =>
      exact ⟨_, entries_mk_journalWith .., writtenAt_cancelNotes _, Or.inl (by simp)⟩
  | _ => exact ⟨[], (List.append_nil _).symm, by simp [WrittenAt], Or.inl rfl⟩

theorem start_of_rowsIn {journal notes : List (Entry ε)} {row : Row}
    (h : row ∈ rowsIn journal notes) : row.start ∈ notes.filterMap instantOf? := by
  obtain ⟨entry, hentry, hsome⟩ := List.mem_filterMap.mp h
  refine List.mem_filterMap.mpr ⟨entry, hentry, ?_⟩
  cases entry with
  | called tick now =>
      cases hsome
      rfl
  | _ => cases hsome

/-- The rows of the next run: those of this one with the ends written now, and perhaps one for a
tick called now. -/
theorem Transition.rows_eq {action : Action} (h : Transition schedule work run action next) :
    ∃ (notes : List (Entry ε)) (new : List Row),
      next.rows = run.rows.map (Row.extend notes) ++ new ∧
      WrittenAt run.now notes ∧
      (new = [] ∨ run.phase = .holdingPermit ∧ ∃ row, new = [row] ∧ row.start = run.now) := by
  obtain ⟨notes, hentries, hnotes, hcalled⟩ := h.written
  refine ⟨notes, _, rows_append hentries, hnotes, ?_⟩
  rw [← map_tick_rowsIn next.entries] at hcalled
  rcases hcalled with hnone | ⟨hphase, hone⟩
  · exact Or.inl (List.map_eq_nil_iff.mp hnone)
  · obtain ⟨row, hnew, _⟩ := List.map_eq_singleton_iff.mp hone
    have hmem : row ∈ rowsIn next.entries notes := by
      rw [hnew]
      exact List.mem_singleton_self row
    exact Or.inr ⟨hphase, row, hnew, hnotes _ (start_of_rowsIn hmem)⟩

theorem Transition.rows_of_ticks_eq {action : Action} (h : Transition schedule work run action next)
    (hreachable : run.Reachable schedule work) (hnext : next.Reachable schedule work)
    (hticks : next.summary.ticks = run.summary.ticks) :
    ∃ notes : List (Entry ε), next.rows = run.rows.map (Row.extend notes) ∧
      WrittenAt run.now notes := by
  obtain ⟨notes, new, hrows, hnotes, hnew⟩ := h.rows_eq
  have hlength := congrArg List.length hrows
  rw [length_rows hnext, hticks, ← length_rows hreachable, List.length_append,
    List.length_map] at hlength
  have hnil : new = [] := List.eq_nil_of_length_eq_zero (by omega)
  rw [hnil, List.append_nil] at hrows
  exact ⟨notes, hrows, hnotes⟩

theorem Transition.rows_of_called {action : Action} (h : Transition schedule work run action next)
    (hreachable : run.Reachable schedule work) (hnext : next.Reachable schedule work)
    (hticks : next.summary.ticks = run.summary.ticks + 1) :
    ∃ (notes : List (Entry ε)) (row : Row),
      next.rows = run.rows.map (Row.extend notes) ++ [row] ∧ row.start = run.now := by
  obtain ⟨notes, new, hrows, _, rfl | ⟨_, row, rfl, hstart⟩⟩ := h.rows_eq
  · have hlength := congrArg List.length hrows
    rw [length_rows hnext, hticks, ← length_rows hreachable] at hlength
    simp at hlength
  · exact ⟨notes, row, hrows, hstart⟩

theorem Transition.now_le {action : Action} (h : Transition schedule work run action next) :
    run.now ≤ next.now := by
  cases h with
  | wait later => exact later
  | _ => exact Nat.le_refl _

theorem Transition.origin_eq {action : Action} (h : Transition schedule work run action next) :
    next.origin = run.origin := by
  cases h <;> rfl

theorem Reachable.origin_le_now (h : run.Reachable schedule work) : run.origin ≤ run.now := by
  refine h.induction (fun _ _ _ => Nat.le_refl _) ?_
  intro run action next _ htransition ih
  rw [htransition.origin_eq]
  exact Nat.le_trans ih htransition.now_le

theorem Reachable.instant_le_now (h : run.Reachable schedule work) :
    ∀ instant ∈ run.entries.filterMap instantOf?, instant ≤ run.now := by
  refine h.induction (fun _ _ _ instant hmem => by cases hmem) ?_
  intro run action next _ htransition ih instant hmem
  obtain ⟨notes, hentries, hnotes, _⟩ := htransition.written
  have hnow := htransition.now_le
  rw [hentries, List.filterMap_append, List.mem_append] at hmem
  rcases hmem with hbefore | hnew
  · exact Nat.le_trans (ih instant hbefore) hnow
  · rw [hnotes instant hnew]
    exact hnow

theorem Reachable.start_le_now {row : Row} (h : run.Reachable schedule work)
    (hrow : row ∈ run.rows) : row.start ≤ run.now := by
  rw [rows_eq] at hrow
  exact h.instant_le_now _ (start_of_rowsIn hrow)

/-- The ticks unfinished from now on, as far as the rows say, are those in flight. -/
theorem Reachable.countP_unfinishedAt {instant : Nat} (h : run.Reachable schedule work)
    (haborted : run.phase.isAborted = false) (hinstant : run.now ≤ instant) :
    run.rows.countP (Row.unfinishedAt instant) = run.running.length := by
  have hrow : ∀ row ∈ run.rows, (row.unfinishedAt instant = true ↔
      row.tick ∉ (Entry.endedIn run.entries).map Prod.fst) := by
    intro row hmem
    rw [rows_eq] at hmem
    obtain ⟨entry, _, hsome⟩ := List.mem_filterMap.mp hmem
    have hending : row.ending = endOf? row.tick run.entries := by
      cases entry with
      | called tick now =>
          cases hsome
          rfl
      | _ => cases hsome
    rw [← endOf?_eq_none_iff, ← hending]
    rcases hend : row.ending with _ | ⟨ended, how⟩
    · simp [Row.unfinishedAt, hend]
    · have hle : ended ≤ run.now := by
        apply h.instant_le_now
        exact List.mem_filterMap.mpr ⟨_, mem_of_endOf? (hending.symm.trans hend), rfl⟩
      have hnot : ¬ instant < ended := by omega
      simp [Row.unfinishedAt, hend, hnot]
  have hperm := h.settled.called haborted
  have hnodup := hperm.nodup_iff.mp h.nodup_called
  have hfilter := hperm.filter (· ∉ (Entry.endedIn run.entries).map Prod.fst)
  rw [filter_notMem_append hnodup] at hfilter
  have hlength := hfilter.length_eq
  rw [List.length_map, ← List.countP_eq_length_filter, ← map_tick_rowsIn run.entries,
    ← rows_eq, List.countP_map] at hlength
  rw [← hlength]
  exact List.countP_congr fun row hmem => by simpa using hrow row hmem

end Run

end OrderFlow
