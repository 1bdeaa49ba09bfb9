import Courier.Proofs.Tags

/-!
# At most once, in order

Workers on one directory may start and stop at any time. No envelope arrives twice, and what arrives from a worker
is in the order of what it found and of what it accepted.
-/

namespace Courier

theorem Outbound.Of.tag? {out : Outbound} {e : Envelope} (h : out.Of e) (key : String) :
    out.envelope.tag? key = e.tag? key := by
  rw [Envelope.tag?, Envelope.tag?, h, e.withReport_header]

theorem Desk.Sends.tagged {k : Desk} (hk : k.Sends) (key : String) :
    ∃ sent : List (Envelope × Option LossReport),
      ((k.arrived.map (·.2.envelope)).filter fun e => (e.tag? key).isSome) =
        (sent.map fun x => x.1.withReport x.2) ∧
      (sent.map Prod.fst).Sublist (k.backlog.map Prod.fst ++ k.accepted) := by
  have hfilled : ∀ a ∈ k.arrived, (a.1.envelope.tag? key).isSome = true → a.1.envelope.isEmpty = false := by
    intro a ha ht
    rw [Bool.eq_false_iff]
    intro he
    have hm : (a.1, Fate.delivered) ∈ k.settled := hk.settled.subset (List.mem_map_of_mem ha)
    rw [hk.order.blank a.1 (List.mem_append_left _ (List.mem_map_of_mem hm)) he] at ht
    cases ht
  refine ⟨(k.arrived.filter fun a => (a.1.envelope.tag? key).isSome).map fun a => (a.1.envelope, a.2.report), ?_, ?_⟩
  · rw [List.map_map, List.filter_map]
    have hf : k.arrived.filter ((fun e => (e.tag? key).isSome) ∘ fun a => a.2.envelope) =
        k.arrived.filter fun a => (a.1.envelope.tag? key).isSome :=
      List.filter_congr fun a ha => by simp [(hk.arrived a ha).tag?]
    rw [hf]
    exact List.map_congr_left fun a ha => hk.arrived a (List.mem_filter.mp ha).1
  · have hf : (k.arrived.filter fun a => (a.1.envelope.tag? key).isSome) =
        (k.arrived.filter fun a => !a.1.envelope.isEmpty).filter fun a => (a.1.envelope.tag? key).isSome := by
      rw [List.filter_filter]
      refine List.filter_congr fun a ha => ?_
      cases ht : (a.1.envelope.tag? key).isSome with
      | false => rfl
      | true => simp [hfilled a ha ht]
    rw [List.map_map, hf]
    exact (List.filter_sublist.map _).trans hk.arrived_sublist

namespace Office

/-- All workers are on this directory, and no tag is offered again that was accepted. -/
def OffersOnce (dir key : String) (s : Office) : Event → Prop
  | .desk _ (.offer e _) => e.Sized ∧ ∀ a ∈ s.accepted, e.tag? key ≠ none → a.tag? key ≠ e.tag? key
  | .start durable settings => durable = true ∧ settings.cacheDir = some dir
  | _ => True

instance (dir key : String) (s : Office) (e : Event) : Decidable (OffersOnce dir key s e) := by
  unfold OffersOnce
  split <;> infer_instance

variable {first s t : Office} {dir key : String} {n : UInt64}

theorem OffersOnce.on {e : Event} (h : OffersOnce dir key s e) : On dir e := by
  cases e with
  | start durable settings => exact h
  | _ => trivial

/-- What holds whatever the workers do: of each tag that was in no file at first there is one envelope at most. -/
structure Tidy (first s : Office) (dir key : String) : Prop where
  shelved : s.Shelved ⟨dir⟩
  unique : ∀ n, (∀ f, ¬ first.depot.storage.Bears (·.tag? key == some n) f) → s.Unique (·.tag? key == some n)
  backlog : ∀ k ∈ s.desks, k.backlog.Pairwise fun a b => a.2.before b.2 = true

theorem tidy_first (hd : first.desks = []) (hf : first.depot.storage.Fit) : Tidy first first dir key where
  shelved := by
    refine ⟨⟨hf.allowed, ?_, ?_, ?_, ?_⟩, hf, ?_⟩ <;> simp [hd, Office.parcels]
  unique n hn := by
    refine ⟨?_, ?_, fun f hb => absurd hb (hn f), fun f g hb => absurd hb (hn f)⟩ <;>
      simp [hd, Office.parcels, Office.accepted, Office.arrived]
  backlog := by simp [hd]

theorem Tidy.desk {i : Nat} {a : Act} (hs : Tidy first s dir key) (ha : OffersOnce dir key s (.desk i a))
    (h : s.after? (.desk i a) = some t) : Tidy first t dir key := by
  obtain ⟨k, k', hk, hact, ht, -⟩ := after?_act h
  have hc := Desk.act?_change hact
  have hm := List.mem_of_getElem? hk
  have hnew : ∀ e, k'.accepted = k.accepted ++ [e] → ∃ reason?, a = .offer e reason? := by
    intro e he
    rcases Desk.act?_accepted hact with hsame | ⟨e', reason?, rfl, hadd⟩
    · rw [he] at hsame
      simp at hsame
    · rw [he] at hadd
      cases List.append_cancel_left hadd
      exact ⟨reason?, rfl⟩
  refine ⟨hs.shelved.shift h hk ht hc.shift fun e he => ?_, fun n hn => ?_, ?_⟩
  · obtain ⟨reason?, rfl⟩ := hnew e he
    exact ha.1
  · refine (hs.unique n hn).shift hk ht (mark_tag key n) hs.shelved hc.shift fun e he hme => ?_
    obtain ⟨reason?, rfl⟩ := hnew e he
    have htag : e.tag? key = some n := by simpa using hme
    refine List.countP_eq_zero.mpr fun b hb hmb => ha.2 b hb (by simp [htag]) ?_
    rw [htag]
    simpa using hmb
  · rw [ht]
    exact forall_mem_set hs.backlog (hc.backlog ▸ hs.backlog k hm)

theorem Tidy.start {settings : Settings} (hs : Tidy first s dir key) (ha : settings.cacheDir = some dir) :
    Tidy first (s.started true settings) dir key := by
  have hl := hs.shelved.locked.start ha
  rcases s.started_cases settings with ⟨e, fs, hw, ht⟩ | ⟨w, fs, hw, ht⟩
  · rw [ht] at hl ⊢
    obtain ⟨-, hfiles, hden⟩ := Worker.startDurable_error hw
    refine ⟨⟨hl, ⟨by rw [hfiles]; exact hs.shelved.fit.sorted, hden.trans hs.shelved.fit.allowed⟩, hs.shelved.sized⟩,
      fun n hn => (hs.unique n hn).same rfl hfiles, hs.backlog⟩
  · have hst := Worker.startDurable_started hw
    obtain ⟨found, hf⟩ := hst.found hs.shelved.fit
    obtain ⟨-, -, -, ho⟩ := hst.lock ha
    refine ⟨hs.shelved.open hf ht hl, fun n hn => (hs.unique n hn).open hs.shelved hf (fun h => (ho h).1) ht, ?_⟩
    rw [ht]
    refine List.forall_mem_append.mpr ⟨hs.backlog, ?_⟩
    simpa only [List.mem_singleton, forall_eq, hf.backlog hst.fresh] using hf.order

theorem Tidy.next {e : Event} (hs : Tidy first s dir key) (ha : OffersOnce dir key s e) (h : s.after? e = some t) :
    Tidy first t dir key := by
  cases e with
  | desk i a => exact hs.desk ha h
  | clock n =>
    have hl := hs.shelved.locked.next ha.on h
    cases h
    exact ⟨⟨hl, hs.shelved.fit, hs.shelved.sized⟩, fun n hn => (hs.unique n hn).same rfl rfl, hs.backlog⟩
  | failWrites on =>
    have hl := hs.shelved.locked.next ha.on h
    cases h
    exact ⟨⟨hl, ⟨hs.shelved.fit.sorted, hs.shelved.fit.allowed⟩, hs.shelved.sized⟩,
      fun n hn => (hs.unique n hn).same rfl rfl, hs.backlog⟩
  | start durable settings =>
    obtain ⟨rfl, hd⟩ := ha
    cases h
    exact hs.start hd

theorem Reach.tidy (hr : Reach (OffersOnce dir key) first s) (hd : first.desks = []) (hf : first.depot.storage.Fit) :
    Tidy first s dir key := by
  induction hr with
  | refl => exact tidy_first hd hf
  | next e _ ha ht ih => exact ih.next ha ht

/-- Workers on one directory start and stop while others are alive, and what they do comes in any order. No tag
arrives twice, and what arrives from a worker is, in this order, of what it found and of what it accepted. -/
theorem arrives_once (hd : first.desks = []) (hf : first.depot.storage.Fit)
    (hr : Reach (OffersOnce dir key) first s) :
    (∀ n, (∀ file, ¬ first.depot.storage.Bears (·.tag? key == some n) file) →
      (s.arrived.filter fun a => a.2.envelope.tag? key == some n).length ≤ 1) ∧
    ∀ k ∈ s.desks,
      (k.backlog.Pairwise fun a b => a.2.before b.2 = true) ∧
      ∃ sent : List (Envelope × Option LossReport),
        ((k.arrived.map (·.2.envelope)).filter fun e => (e.tag? key).isSome) =
          (sent.map fun x => x.1.withReport x.2) ∧
        (sent.map Prod.fst).Sublist (k.backlog.map Prod.fst ++ k.accepted) := by
  have ht := hr.tidy hd hf
  have hsends := hr.sends (by simp [hd])
  refine ⟨fun n hn => ?_, fun k hk => ⟨ht.backlog k hk, ?_⟩⟩
  · have hu := ht.unique n hn
    have he : (s.arrived.filter fun a => a.2.envelope.tag? key == some n) =
        s.arrived.filter fun a => a.1.envelope.tag? key == some n := by
      refine List.filter_congr fun a ha => ?_
      obtain ⟨k, hk, ha⟩ := List.mem_flatMap.mp ha
      rw [((hsends k hk).arrived a ha).tag?]
    rw [he, ← List.countP_eq_length_filter]
    have hone := hu.one
    have hfew := hu.few
    omega
  · exact (hsends k hk).tagged key

/-! ## A run -/

def sharing : Settings := { Settings.standard with cacheDir := some "cache", shutdownTimeout := .zero }

def tagged (n : UInt64) : Envelope := ⟨[("tag", .ofNat n)], [.make .event (.json (.str ""))]⟩

/-- The first worker writes two files and gives up while a second one, without the directory, delivers an
envelope; a third one delivers what it finds. -/
def sharingRun : List Event :=
  let step i := Event.desk i .step
  let offer i n := Event.desk i (.offer (tagged n) none)
  [.start true sharing, offer 0 1, offer 0 2, step 0, step 0, step 0, .start true sharing, offer 1 3,
    .desk 0 (.call .shutdown), .desk 0 (.look 0 0), step 1, step 1, step 1, .desk 1 (.answer (.ok ())),
    step 0, step 0, step 0, step 0, .start true sharing, step 2, step 2, step 2, .desk 2 (.answer (.ok ()))]

theorem arrives_once_sharing :
    ∃ s : Office, run? (OffersOnce "cache" "tag") { depot := {} } sharingRun = some s ∧
      (∀ n, (s.arrived.filter fun a => a.2.envelope.tag? "tag" == some n).length ≤ 1) ∧
      ∀ k ∈ s.desks,
        (k.backlog.Pairwise fun a b => a.2.before b.2 = true) ∧
        ∃ sent : List (Envelope × Option LossReport),
          ((k.arrived.map (·.2.envelope)).filter fun e => (e.tag? "tag").isSome) =
            (sent.map fun x => x.1.withReport x.2) ∧
          (sent.map Prod.fst).Sublist (k.backlog.map Prod.fst ++ k.accepted) := by
  have hs : (run? (OffersOnce "cache" "tag") { depot := {} } sharingRun).isSome = true := by decide +kernel
  obtain ⟨s, hs⟩ := Option.isSome_iff_exists.mp hs
  have hd : ({ depot := {} } : Office).desks = [] := rfl
  obtain ⟨hn, hk⟩ := arrives_once hd ⟨.nil, rfl⟩ (.of_run? hs)
  refine ⟨s, hs, fun n => hn n ?_, hk⟩
  rintro file ⟨data, e, hm, -⟩
  cases hm

end Office

end Courier
