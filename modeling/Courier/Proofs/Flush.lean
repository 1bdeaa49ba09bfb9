import Courier.Proofs.Journal

/-!
# Flushing

Whoever flushes waits until as many parcels are done with as there were when the wait began, and then for a report of
losses if one is due. The queue keeps its order, so the parcels that are done with then are the very ones that were
there. What comes later does not matter.
-/

namespace Courier

/-- A parcel that is made for a report of losses to ride along. -/
def Parcel.carrier : Parcel := ⟨{}, none, false⟩

/-! ## The line -/

namespace Desk

variable {k₀ k k' : Desk} {d d' : Depot} {n now : Nat}

/-- All that was ever put into the queue, first come first. -/
def line (k : Desk) : List (Envelope × Bool) := k.parcels.map Parcel.label

def finished (k : Desk) : List (Envelope × Bool) := k.settled.map (·.1.label)

theorem line_eq (k : Desk) : k.line = k.finished ++ k.worker.parcels.map Parcel.label := by
  simp [line, finished, parcels, Function.comp_def]

theorem finished_prefix (k : Desk) : k.finished <+: k.line := by
  rw [line_eq]
  exact List.prefix_append ..

theorem Progress.line (h : k.Progress k') : k.line <+: k'.line := by
  obtain ⟨more, hl, -⟩ := h.parcels
  rw [Desk.line, Desk.line, hl, List.map_append]
  exact List.prefix_append ..

theorem Progress.finished (h : k.Progress k') : k.finished <+: k'.finished := by
  suffices ∃ more, k'.settled = k.settled ++ more by
    obtain ⟨more, hs⟩ := this
    rw [Desk.finished, Desk.finished, hs, List.map_append]
    exact List.prefix_append ..
  cases h with
  | stay hc hl hs => exact ⟨[], by simp [hs]⟩
  | settle p f hc hl hs => exact ⟨_, hs⟩
  | report hp hs => exact ⟨[], by simp [hs]⟩
  | accept e hr hp hs => exact ⟨[], by simp [hs]⟩

theorem Course.line (hc : k₀.Course k) : k₀.line <+: k.line := by
  induction hc with
  | refl => exact List.prefix_refl _
  | next _ hn ih => exact ih.trans hn.progress.line

theorem Course.finished (hc : k₀.Course k) : k₀.finished <+: k.finished := by
  induction hc with
  | refl => exact List.prefix_refl _
  | next _ hn ih => exact ih.trans hn.progress.finished

theorem prefix_finished {xs : List (Envelope × Bool)} (hx : xs <+: k.line) :
    xs <+: k.finished ↔ xs.length ≤ k.finished.length :=
  ⟨List.IsPrefix.length_le, List.prefix_of_prefix_length_le hx k.finished_prefix⟩

variable {places : Nat} {backlog : List Envelope}

theorem Counted.processed_eq (hk : k.Counted places backlog) : k.worker.processed = k.finished.length := by
  rw [hk.processed, finished, List.length_map]

theorem Counted.accepted_eq (hk : k.Counted places backlog) : k.worker.accepted = k.line.length := by
  rw [hk.worker.accepted, hk.processed_eq, line_eq, List.length_append, List.length_map]

/-! ## Looks -/

theorem look_eq {x : Wait} (hx : k.waits[n]? = some x) (d : Depot) (now : Nat) :
    k.act? d (.look n now) =
      some ({ k with worker := (x.poll now k.worker d).1, waits := k.waits.set n (x.poll now k.worker d).2 }, d) := by
  simp only [act?, hx, Option.map_some]

theorem look_depot (h : k.act? d (.look n now) = some (k', d')) : d' = d := by
  obtain ⟨x, -, he⟩ := Option.map_eq_some_iff.mp h
  cases he
  rfl

theorem look_wait {x : Wait} (hx : k.waits[n]? = some x) (h : k.act? d (.look n now) = some (k', d')) :
    k'.waits[n]? = some (x.poll now k.worker d).2 := by
  rw [look_eq hx] at h
  cases h
  obtain ⟨hn, -⟩ := List.getElem?_eq_some_iff.mp hx
  exact List.getElem?_set_self hn

theorem enter?_waits {e : Entry} (he : k.enter? e = some k') {x : Wait} (hx : k.waits[n]? = some x) :
    k'.waits[n]? = some x ∨ ∃ d now, e = .act (.look n now) d ∧ k.act? d (.look n now) = some (k', d) := by
  cases e with
  | handled f =>
    obtain ⟨p, -, rfl⟩ := Option.map_eq_some_iff.mp he
    exact .inl hx
  | forsaken f =>
    simp only [enter?] at he
    split at he
    · cases he
      exact .inl hx
    · cases he
  | act a d =>
    obtain ⟨⟨u, d'⟩, h, rfl⟩ := Option.map_eq_some_iff.mp he
    cases a with
    | step =>
      obtain ⟨y, -, he⟩ := Option.map_eq_some_iff.mp h
      cases he
      exact .inl hx
    | answer r =>
      simp only [act?] at h
      split at h
      · split at h <;> cases h
        exact .inl hx
      · cases h
    | resume =>
      simp only [act?] at h
      split at h <;> cases h
      exact .inl hx
    | offer e reason? =>
      have he : k.offered d e reason? = (u, d') := Option.some.inj h
      unfold offered at he
      split at he <;> cases he <;> exact .inl hx
    | call e =>
      cases h
      obtain ⟨hn, -⟩ := List.getElem?_eq_some_iff.mp hx
      exact .inl (by rw [List.getElem?_append_left hn]; exact hx)
    | look m now =>
      obtain ⟨y, hy, he⟩ := Option.map_eq_some_iff.mp h
      -- a look at another wait leaves this one as it is
      by_cases hm : m = n
      · subst hm
        obtain rfl := look_depot h
        exact .inr ⟨_, now, rfl, h⟩
      · cases he
        exact .inl (by rw [List.getElem?_set_ne hm]; exact hx)

end Desk

/-! ## What a look finds -/

namespace Worker

/-- What one who waits finds and does, before and after the report. -/
inductive Watched (w : Worker) (d : Depot) (now target deadline : Nat) : Bool → Worker × Wait → Prop
  | reached (ht : target ≤ w.processed) : Watched w d now target deadline true (w, .done (some true))
  | quiet (ht : target ≤ w.processed) (hr : ¬ w.reportDue d) (hb : ¬ w.reportBroken d) :
    Watched w d now target deadline false (w, .done (some true))
  | reports (ht : target ≤ w.processed) (hr : w.reportDue d) :
    Watched w d now target deadline false (w.pushUnreserved {} none, .processed (w.accepted + 1) deadline true)
  | tooLate (ht : target ≤ w.processed) (hr : w.reportDue d) (hd : deadline ≤ now) :
    Watched w d now target deadline false (w.pushUnreserved {} none, .done (some false))
  | broken (ht : target ≤ w.processed) (hb : w.reportBroken d) :
    Watched w d now target deadline false (w, .broken)
  | waits {reported} (ht : w.processed < target) :
    Watched w d now target deadline reported (w, .processed target deadline reported)
  | late {reported} (ht : w.processed < target) (hd : deadline ≤ now) :
    Watched w d now target deadline reported (w, .done (some false))

theorem pollProcessed_watched (w : Worker) (d : Depot) (now target deadline : Nat) (reported : Bool) :
    w.Watched d now target deadline reported (Wait.pollProcessed now w d target deadline reported) := by
  unfold Wait.pollProcessed
  by_cases ht : target ≤ w.processed
  · rw [if_pos ht]
    cases reported with
    | true => exact .reached ht
    | false =>
      rw [if_neg nofun]
      have ha := w.report_asked d now deadline
      generalize Wait.report now deadline w d = x at ha
      cases ha with
      | quiet hr hb => exact .quiet ht hr hb
      | broken hb => exact .broken ht hb
      | reports hr =>
        unfold Wait.unlessLate
        split
        · next hd => exact .tooLate ht hr hd
        · exact .reports ht hr
  · rw [if_neg ht]
    unfold Wait.unlessLate
    split
    · next hd => exact .late (by omega) hd
    · exact .waits (by omega)

end Worker

/-! ## Who flushes -/

namespace Desk

variable {k₀ k k' : Desk} {d d' : Depot} {n now deadline : Nat}

/-- Losses were to be reported at this look. -/
def Sight.due (v : Sight) : Prop := v.desk.worker.reportDue v.depot

/-- They were more than a word can say. -/
def Sight.broken (v : Sight) : Prop := v.desk.worker.reportBroken v.depot

/-- All that was ever put into the queue at this look, and a parcel for a report behind it. -/
def Sight.reported (v : Sight) : List (Envelope × Bool) := v.desk.line ++ [Parcel.carrier.label]

/-- What was there at first was done with at this look of wait `n`, and at none before. -/
structure Drained (k₀ : Desk) (log : List Entry) (n : Nat) (v : Sight) : Prop where
  looked : k₀.Looked log n v
  finished : k₀.line <+: v.desk.finished
  first : ∀ v', k₀.Looked v.before n v' → ¬ k₀.line <+: v'.desk.finished

/-- Wait `n` ended badly at this look: the deadline had passed, and what it waited for was not done with. -/
structure Missed (k₀ : Desk) (log : List Entry) (n deadline : Nat) (v : Sight) : Prop where
  looked : k₀.Looked log n v
  late : deadline ≤ v.time
  ended : ∃ u, k₀.follow? (v.until n) = some u ∧ u.waits[n]? = some (.done (some false))
  unfinished : ¬ k₀.line <+: v.desk.finished ∨
    ∃ v', k₀.Drained (v.until n) n v' ∧ v'.due ∧ ¬ v'.reported <+: v.desk.finished

/-- How far wait `n` has come. -/
inductive Watch (k₀ : Desk) (log : List Entry) (n deadline : Nat) (k : Desk) : Prop
  | waiting (hu : ∀ v, k₀.Looked log n v → ¬ k₀.line <+: v.desk.finished)
    (hw : k.waits[n]? = some (.processed k₀.line.length deadline false))
  | reporting {v} (hv : k₀.Drained log n v) (hr : v.due) (hl : v.reported <+: k.line)
    (hw : k.waits[n]? = some (.processed (v.desk.line.length + 1) deadline true))
  | done {v} (hv : k₀.Drained log n v) (hb : ¬ v.broken) (hr : v.due → v.reported <+: k.finished)
    (hw : k.waits[n]? = some (.done (some true)))
  | late {v} (hv : k₀.Missed log n deadline v) (hw : k.waits[n]? = some (.done (some false)))
  | broken {v} (hv : k₀.Drained log n v) (hb : v.broken) (hw : k.waits[n]? = some .broken)

variable {places : Nat} {backlog : List Envelope} {log : List Entry} {v : Sight}

theorem Drained.append (h : k₀.Drained log n v) (more : List Entry) : k₀.Drained (log ++ more) n v :=
  ⟨h.looked.append more, h.finished, h.first⟩

theorem Missed.append (h : k₀.Missed log n deadline v) (more : List Entry) : k₀.Missed (log ++ more) n deadline v :=
  ⟨h.looked.append more, h.late, h.ended, h.unfinished⟩

/-- What is not a look of wait `n` leaves it where it is. -/
theorem Watch.rest {e : Entry} (h : k₀.Watch log n deadline k) (hn : k.Next k') (hs : k'.waits[n]? = k.waits[n]?)
    (he : ∀ d now, e ≠ .act (.look n now) d) : k₀.Watch (log ++ [e]) n deadline k' := by
  cases h with
  | waiting hu hw =>
    refine .waiting (fun v hv => ?_) (hs.trans hw)
    rcases hv.of_snoc with hv | ⟨-, hv⟩
    · exact hu v hv
    · exact absurd hv.symm (he v.depot v.time)
  | reporting hv hr hl hw => exact .reporting (hv.append _) hr (hl.trans hn.progress.line) (hs.trans hw)
  | done hv hb hr hw => exact .done (hv.append _) hb (fun h => (hr h).trans hn.progress.finished) (hs.trans hw)
  | late hv hw => exact .late (hv.append _) (hs.trans hw)
  | broken hv hb hw => exact .broken (hv.append _) hb (hs.trans hw)

theorem look_settled (h : k.act? d (.look n now) = some (k', d')) : k'.finished = k.finished := by
  obtain ⟨x, -, he⟩ := Option.map_eq_some_iff.mp h
  cases he
  rfl

theorem look_report {x : Wait} (hx : k.waits[n]? = some x) (h : k.act? d (.look n now) = some (k', d'))
    (hw : (x.poll now k.worker d).1 = k.worker.pushUnreserved {} none) :
    k'.line = k.line ++ [Parcel.carrier.label] := by
  rw [look_eq hx] at h
  cases h
  simp only [line, parcels, hw, Worker.pushUnreserved_parcels, ← List.append_assoc, List.map_append]
  rfl

theorem looked_last (hl : k₀.follow? log = some k) (d : Depot) (n now : Nat) :
    k₀.Looked (log ++ [.act (.look n now) d]) n ⟨log, k, d, now⟩ :=
  ⟨List.prefix_refl _, hl⟩

theorem follow?_look (hl : k₀.follow? log = some k) (h : k.act? d (.look n now) = some (k', d)) :
    k₀.follow? (log ++ [.act (.look n now) d]) = some k' := by
  rw [follow?_snoc hl, enter?, h]
  rfl

/-- A look before the report. -/
theorem watch_first {x : Wait} (hl : k₀.follow? log = some k) (hk : k.Counted places backlog)
    (hx : k.waits[n]? = some x)
    (hp : x.poll now k.worker d = Wait.pollProcessed now k.worker d k₀.line.length deadline false)
    (hu : ∀ v, k₀.Looked log n v → ¬ k₀.line <+: v.desk.finished) (h : k.act? d (.look n now) = some (k', d)) :
    k₀.Watch (log ++ [.act (.look n now) d]) n deadline k' := by
  have hline := (follow?_course hl).line
  have hw := look_wait hx h
  have hlast := looked_last hl d n now
  have hf := look_settled h
  have hv (ht : k₀.line.length ≤ k.worker.processed) :
      k₀.Drained (log ++ [.act (.look n now) d]) n ⟨log, k, d, now⟩ :=
    ⟨hlast, (prefix_finished hline).mpr (hk.processed_eq ▸ ht), hu⟩
  have hunder (ht : k.worker.processed < k₀.line.length) : ¬ k₀.line <+: k.finished := by
    rw [prefix_finished hline, ← hk.processed_eq]
    omega
  have hfound := k.worker.pollProcessed_watched d now k₀.line.length deadline false
  rw [← hp] at hfound
  generalize hy : x.poll now k.worker d = y at hfound hw
  cases hfound with
  | quiet ht hr hb => exact .done (hv ht) hb (fun h => (hr h).elim) hw
  | broken ht hb => exact .broken (hv ht) hb hw
  | reports ht hr =>
    have hreport := look_report hx h (by rw [hy])
    rw [hk.accepted_eq] at hw
    exact .reporting (hv ht) hr (hreport ▸ List.prefix_refl _) hw
  | tooLate ht hr hlate =>
    refine .late ⟨hlast, hlate, ⟨k', follow?_look hl h, hw⟩, .inr ⟨_, hv ht, hr, fun hm => ?_⟩⟩ hw
    have hm : k.line ++ [Parcel.carrier.label] <+: k.finished := hm
    have hlen := hm.length_le
    have hfew := k.finished_prefix.length_le
    rw [List.length_append, List.length_singleton] at hlen
    omega
  | waits ht =>
    refine .waiting (fun v hv => ?_) hw
    rcases hv.of_snoc with hv' | ⟨hb, -⟩
    · exact hu v hv'
    · obtain rfl : k = v.desk := Option.some.inj (hl.symm.trans (hb ▸ hv.found))
      exact hunder ht
  | late ht hlate => exact .late ⟨hlast, hlate, ⟨k', follow?_look hl h, hw⟩, .inl (hunder ht)⟩ hw

/-- A look after the report. -/
theorem watch_reported (hlog : k₀.follow? log = some k) (hk : k.Counted places backlog) (hv : k₀.Drained log n v)
    (hr : v.due) (hl : v.reported <+: k.line)
    (hx : k.waits[n]? = some (.processed (v.desk.line.length + 1) deadline true))
    (h : k.act? d (.look n now) = some (k', d)) :
    k₀.Watch (log ++ [.act (.look n now) d]) n deadline k' := by
  have hw := look_wait hx h
  have hf := look_settled h
  have hn : k.Next k' := .act _ h
  have hlast := looked_last hlog d n now
  have hlen : v.reported.length = v.desk.line.length + 1 := by simp [Sight.reported]
  have hfound := k.worker.pollProcessed_watched d now (v.desk.line.length + 1) deadline true
  have hb : ¬ v.broken := by
    intro hb
    obtain ⟨-, ⟨m, hm, -⟩, -⟩ := hr
    simp [hb.2] at hm
  rw [Wait.poll] at hw
  generalize Wait.pollProcessed now k.worker d (v.desk.line.length + 1) deadline true = y at hfound hw
  cases hfound with
  | reached ht =>
    refine .done (hv.append _) hb (fun _ => ?_) hw
    rw [hf, prefix_finished hl, hlen, ← hk.processed_eq]
    exact ht
  | waits => exact .reporting (hv.append _) hr (hl.trans hn.progress.line) hw
  | late ht hlate =>
    refine .late ⟨hlast, hlate, ⟨k', follow?_look hlog h, hw⟩, .inr ⟨v, hv.append _, hr, fun hm => ?_⟩⟩ hw
    rw [prefix_finished hl, hlen, ← hk.processed_eq] at hm
    omega

theorem Watch.next {e : Entry} (h : k₀.Watch log n deadline k) (hl : k₀.follow? log = some k)
    (hk : k.Counted places backlog) (he : k.enter? e = some k') : k₀.Watch (log ++ [e]) n deadline k' := by
  have ⟨x, hx⟩ : ∃ x, k.waits[n]? = some x := by
    cases h with
    | waiting _ hw => exact ⟨_, hw⟩
    | reporting _ _ _ hw => exact ⟨_, hw⟩
    | done _ _ _ hw => exact ⟨_, hw⟩
    | late _ hw => exact ⟨_, hw⟩
    | broken _ _ hw => exact ⟨_, hw⟩
  by_cases hlook : ∃ d now, e = .act (.look n now) d
  · obtain ⟨d, now, rfl⟩ := hlook
    obtain ⟨⟨u, d'⟩, ha, rfl⟩ := Option.map_eq_some_iff.mp he
    obtain rfl := look_depot ha
    have hn : k.Next u := .act _ ha
    cases h with
    | waiting hu hw => exact watch_first hl hk hw rfl hu ha
    | reporting hv hr hm hw => exact watch_reported hl hk hv hr hm hw ha
    | done hv hb hr hw => exact .done (hv.append _) hb (fun h => (hr h).trans hn.progress.finished) (look_wait hw ha)
    | late hv hw => exact .late (hv.append _) (look_wait hw ha)
    | broken hv hb hw => exact .broken (hv.append _) hb (look_wait hw ha)
  · have hnot : ∀ d now, e ≠ .act (.look n now) d := fun d now hd => hlook ⟨d, now, hd⟩
    rcases enter?_waits he hx with hs | ⟨d, now, hd, -⟩
    · exact h.rest (enter?_next he) (hs.trans hx.symm) hnot
    · exact absurd hd (hnot d now)

theorem Watch.follow {more : List Entry} (h : k₀.Watch log n deadline k) (hl : k₀.follow? log = some k)
    (hk : k₀.Counted places backlog) (hm : k.follow? more = some k') : k₀.Watch (log ++ more) n deadline k' := by
  induction more generalizing log k with
  | nil =>
    cases hm
    simpa using h
  | cons e more ih =>
    rw [follow?_cons] at hm
    obtain ⟨u, hu, hm⟩ := Option.bind_eq_some_iff.mp hm
    have hnext := h.next hl ((follow?_course hl).counted hk) hu
    rw [List.append_cons]
    exact ih hnext ((follow?_snoc hl e).trans hu) hm

/-- Once what it waits for is done with, the next look ends the wait, whatever else there is. -/
theorem Watch.look (h : k₀.Watch log n deadline k) (hk : k.Counted places backlog)
    (hl : k.act? d (.look n now) = some (k', d)) (hnot : k.waits[n]? ≠ some (.done (some false)))
    (hwhole : k.waits[n]? ≠ some .broken) (hfin : k₀.line <+: k.finished) (hdue : ¬ k.worker.reportDue d)
    (hbroken : ¬ k.worker.reportBroken d) :
    k'.waits[n]? = some (.done (some true)) ∨ ∃ v, k₀.Drained log n v ∧ v.due ∧ ¬ v.reported <+: k.finished := by
  have hp := hk.processed_eq
  cases h with
  | waiting _ hw =>
    have hw' := look_wait hw hl
    have hv := k.worker.pollProcessed_watched d now k₀.line.length deadline false
    have hlen := hfin.length_le
    rw [Wait.poll] at hw'
    generalize Wait.pollProcessed now k.worker d k₀.line.length deadline false = y at hv hw'
    cases hv with
    | quiet => exact .inl hw'
    | broken _ hb => exact absurd hb hbroken
    | reports _ hr => exact absurd hr hdue
    | tooLate _ hr => exact absurd hr hdue
    | waits ht => omega
    | late ht => omega
  | @reporting v hv hr hm hw =>
    by_cases hf : v.reported <+: k.finished
    · have hw' := look_wait hw hl
      have hlen := hf.length_le
      rw [Sight.reported, List.length_append, List.length_singleton] at hlen
      rw [Wait.poll, Wait.pollProcessed, if_pos (by omega), if_pos rfl] at hw'
      exact .inl hw'
    · exact .inr ⟨v, hv, hr, hf⟩
  | done _ _ _ hw => exact .inl (look_wait hw hl)
  | late _ hw => exact absurd hw hnot
  | broken _ _ hw => exact absurd hw hwhole

theorem filter_finished (hf : k₀.line <+: k.finished) (f : Envelope × Bool → Bool) :
    (k₀.parcels.filter fun p => f p.label).map (·.envelope) <+:
      ((k.settled.map Prod.fst).filter fun p => f p.label).map (·.envelope) := by
  have hl (ps : List Parcel) :
      (ps.filter fun p => f p.label).map (·.envelope) = ((ps.map Parcel.label).filter f).map Prod.fst := by
    rw [List.filter_map, List.map_map]
    rfl
  rw [hl, hl, List.map_map]
  exact (hf.filter f).map Prod.fst

/-- Somebody flushes a worker that runs, and a journal tells all that happens from the first look on. When the flush
ends well, all that was found in files or accepted before is done with; and if losses were to be reported at the look
that first found it so, a parcel for the report, put in behind, is done with as well. It ends badly only at a look
after the deadline that finds some of this not done with. The sum of the losses breaks it if it is more than a word. A
look that finds all done with ends the wait, however much was accepted in the meantime. -/
theorem flush_watermark {settings : Settings} {handling : Handling} {backlog : List (Envelope × Path)} {k₀ k : Desk}
    {d₀ : Depot} {n now : Nat} {t : Duration} {log : List Entry} (hm : (manned settings handling backlog).Course k₀)
    (hs : k₀.worker.phase = .running) (hw : k₀.waits[n]? = some (.begun (.flush t)))
    (hhead : log.head? = some (.act (.look n now) d₀)) (hl : k₀.follow? log = some k) :
    (k.waits[n]? = some (.done (some true)) →
      backlog.map Prod.fst <+: ((k.settled.map Prod.fst).filter (!·.reserved)).map (·.envelope) ∧
      k₀.accepted <+: ((k.settled.map Prod.fst).filter (·.reserved)).map (·.envelope) ∧
      ∃ v, k₀.Drained log n v ∧ ¬ v.broken ∧ (v.due → v.reported <+: k.finished)) ∧
    (k.waits[n]? = some (.done (some false)) → ∃ v, k₀.Missed log n (now + t.ticks) v) ∧
    (k.waits[n]? = some .broken → ∃ v, k₀.Drained log n v ∧ v.broken) ∧
    ∀ k' d now', k.act? d (.look n now') = some (k', d) →
      k.waits[n]? ≠ some (.done (some false)) → k.waits[n]? ≠ some .broken →
      k₀.line <+: k.finished → ¬ k.worker.reportDue d → ¬ k.worker.reportBroken d →
      k'.waits[n]? = some (.done (some true)) ∨
        ∃ v, k₀.Drained log n v ∧ v.due ∧ ¬ v.reported <+: k.finished := by
  have hk₀ := hm.counted (manned_counted settings handling backlog)
  have hc := follow?_course hl
  obtain ⟨rest, rfl⟩ : ∃ rest, log = .act (.look n now) d₀ :: rest := by
    cases log with
    | nil => cases hhead
    | cons e rest => exact ⟨rest, by rw [Option.some.inj hhead]⟩
  have ⟨k₁, h₁, hrest⟩ := Option.bind_eq_some_iff.mp ((follow?_cons ..).symm.trans hl)
  obtain ⟨⟨k₁, d₁⟩, ha, rfl⟩ := Option.map_eq_some_iff.mp h₁
  obtain rfl := look_depot ha
  have hpoll : (Wait.begun (.flush t)).poll now k₀.worker d₁ =
      Wait.pollProcessed now k₀.worker d₁ k₀.line.length (now + t.ticks) false := by
    rw [Wait.poll, if_neg (by simp [hs]), hk₀.accepted_eq]
  have hnone : ∀ v, k₀.Looked [] n v → ¬ k₀.line <+: v.desk.finished := by
    intro v hv
    have := hv.written.length_le
    simp [Sight.until] at this
  -- the first look fixes what is waited for; `Watch` tells what becomes of the wait after it
  have hfirst := watch_first rfl hk₀ hw hpoll hnone ha
  have hwatch := hfirst.follow (follow?_look rfl ha) hk₀ hrest
  refine ⟨fun hdone => ?_, fun hlate => ?_, fun hbroken => ?_, fun k' d now' hlook hnot hwhole hfin hdue hb =>
    hwatch.look (hc.counted hk₀) hlook hnot hwhole hfin hdue hb⟩
  · cases hwatch with
    | waiting _ hw => simp [hw] at hdone
    | reporting _ _ _ hw => simp [hw] at hdone
    | late _ hw => simp [hw] at hdone
    | broken _ _ hw => simp [hw] at hdone
    | @done v hv hb hr hw =>
      have hfin : k₀.line <+: k.finished := hv.finished.trans (hv.looked.course hl).finished
      obtain ⟨m, hun⟩ := hk₀.unreserved
      refine ⟨?_, ?_, v, hv, hb, hr⟩
      · refine List.IsPrefix.trans ?_ (filter_finished hfin (!·.2))
        rw [show (k₀.parcels.filter fun p => !p.label.2).map (·.envelope) = _ from hun]
        exact List.prefix_append ..
      · rw [← hk₀.reserved]
        exact filter_finished hfin (·.2)
  · cases hwatch with
    | waiting _ hw => simp [hw] at hlate
    | reporting _ _ _ hw => simp [hw] at hlate
    | done _ _ _ hw => simp [hw] at hlate
    | broken _ _ hw => simp [hw] at hlate
    | @late v hv hw => exact ⟨v, hv⟩
  · cases hwatch with
    | waiting _ hw => simp [hw] at hbroken
    | reporting _ _ _ hw => simp [hw] at hbroken
    | done _ _ _ hw => simp [hw] at hbroken
    | late _ hw => simp [hw] at hbroken
    | @broken v hv hb hw => exact ⟨v, hv, hb⟩

/-- The only envelope is rejected, and the loss is reported on its own; what comes in behind the report is still in
the queue when the wait is over. -/
def flushedRun : List Act :=
  [.look 0 0, .step, .step, .step, .answer (.error (.rejected 400 "bad")), .look 0 1,
    .offer (.ofEvent "b" (.str "")) none, .step, .step, .step, .answer (.ok ()), .look 0 2]

theorem flush_watermark_flushedRun :
    ∃ k₀ k d₀ d,
      (manned crowded .once []).acts? {} [.offer (.ofEvent "a" (.str "")) none, .call (.flush (.ofSeconds 2))] =
        some (k₀, d₀) ∧
      k₀.acts? d₀ flushedRun = some (k, d) ∧ k.waits[0]? = some (.done (some true)) ∧
      k.finished.length = 2 ∧ k.line.length = 3 ∧
      k₀.accepted <+: ((k.settled.map Prod.fst).filter (·.reserved)).map (·.envelope) ∧
      ∃ v, k₀.Drained (k₀.journal d₀ flushedRun) 0 v ∧ ¬ v.broken ∧ (v.due → v.reported <+: k.finished) := by
  have hrun : (((manned crowded .once []).acts? {}
      [.offer (.ofEvent "a" (.str "")) none, .call (.flush (.ofSeconds 2))]).bind fun x =>
        (x.1.acts? x.2 flushedRun).map fun z =>
          (x.1.worker.phase, x.1.waits, z.1.waits[0]?, z.1.finished.length, z.1.line.length)) =
      some (.running, [.begun (.flush (.ofSeconds 2))], some (.done (some true)), 2, 3) := by decide +kernel
  obtain ⟨⟨k₀, d₀⟩, h₀, hrun⟩ := Option.bind_eq_some_iff.mp hrun
  obtain ⟨⟨k, d⟩, hk, hx⟩ := Option.map_eq_some_iff.mp hrun
  simp only [Prod.mk.injEq] at hk hx
  obtain ⟨hs, hw, hdone, hfin, hline⟩ := hx
  have hw₀ : k₀.waits[0]? = some (.begun (.flush (.ofSeconds 2))) := by rw [hw]; rfl
  obtain ⟨htrue, -, -, -⟩ := flush_watermark (.of_acts? h₀) hs hw₀ rfl (follow?_journal hk)
  obtain ⟨-, hacc, hdrained⟩ := htrue hdone
  exact ⟨k₀, k, d₀, d, h₀, hk, hdone, hfin, hline, hacc, hdrained⟩

end Desk

end Courier
