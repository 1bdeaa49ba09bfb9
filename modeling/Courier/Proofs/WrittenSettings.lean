import Courier.Proofs.Json.Read
import Courier.Settings.Text

/-!
# Written settings

What is read from the text of valid settings has the whole milliseconds of every duration, modulo `2^64`, and all the
rest as it was. It is written in the same way again. It need not be valid: an interval of less than a millisecond is
written as zero.
-/

namespace Courier

/-! ## Records -/

namespace Json

theorem memberDocuments_eq (members : List (String × Json)) :
    memberDocuments members = members.map fun m => (some m.1, m.2.document) := by
  induction members with
  | nil => rfl
  | cons m members ih =>
    obtain ⟨k, v⟩ := m
    rw [memberDocuments, ih]
    rfl

end Json

namespace Record

variable {fields : List String}

theorem ofMembers?_of_nodup {record : Record} (hn : (record.map Prod.fst).Nodup)
    (hf : ∀ key ∈ record.map Prod.fst, key ∈ fields) :
    ofMembers? fields (record.map fun m => (some m.1, m.2)) = some record := by
  induction record with
  | nil => rfl
  | cons m record ih =>
    obtain ⟨hm, hr⟩ := List.nodup_cons.mp hn
    have hrest := ih hr fun key hk => hf key (List.mem_cons_of_mem _ hk)
    have hnone : record.lookup m.1 = none := by
      rw [List.lookup_eq_none_iff]
      intro d hd
      rw [bne_iff_ne]
      intro hk
      exact hm (List.mem_map.mpr ⟨d, hd, hk.symm⟩)
    have hknown : fields.contains m.1 = true := List.contains_iff_mem.mpr (hf m.1 (by simp))
    rw [List.map_cons, ofMembers?, hrest]
    simp only [hknown, hnone, if_true, Option.isSome_none, Bool.false_eq_true, if_false]

theorem optional_bind {α β : Type} {record : Record} {name : String} {d : Document} {read : Document → Option α}
    {value : α} (h : record.lookup name = some d) (hr : read d = some value) (absent : α) (f : α → Option β) :
    (record.optional name read absent).bind f = f value := by
  simp only [optional, h, hr, Option.bind_some]

end Record

namespace Document

/-- An object with just the fields of a record is read as that record. -/
theorem settings?_document {fields : List String} {members : List (String × Json)} (surplus : Surplus)
    (hk : members.map Prod.fst = fields) (hn : fields.Nodup) :
    (Json.obj members).document.settings? surplus fields = some (members.map fun m => (m.1, m.2.document)) := by
  have hkeys : (members.map fun m => (m.1, m.2.document)).map Prod.fst = fields := by
    rw [List.map_map]
    exact hk
  have h : Record.ofMembers? fields ((members.map fun m => (m.1, m.2.document)).map fun m => (some m.1, m.2)) =
      some (members.map fun m => (m.1, m.2.document)) := by
    apply Record.ofMembers?_of_nodup
    · rwa [hkeys]
    · rw [hkeys]
      exact fun key hm => hm
  rw [List.map_map] at h
  rw [Json.document, Json.memberDocuments_eq]
  exact h

end Document

/-! ## Durations -/

namespace Duration

/-- What is written of a duration: its whole milliseconds, modulo `2^64`. -/
def inMillis (d : Duration) : Duration := .ofMillis d.millis

/-- Whether there are whole milliseconds, and a word holds them. -/
def IsWhole (d : Duration) : Prop := 10 ^ 6 ∣ d.nanos ∧ d.wholeMillis < 2 ^ 64

theorem millis_ofMillis (ms : UInt64) : (ofMillis ms).millis = ms := by
  unfold millis wholeMillis ofMillis
  rw [Nat.mul_div_cancel _ (by decide)]
  exact UInt64.ofNat_toNat

theorem inMillis_nanos {d : Duration} (h : d.wholeMillis < 2 ^ 64) : d.inMillis.nanos = d.nanos / 10 ^ 6 * 10 ^ 6 := by
  unfold inMillis ofMillis millis
  rw [Nat.toUInt64_eq, UInt64.toNat_ofNat', Nat.mod_eq_of_lt h]
  rfl

theorem IsWhole.inMillis {d : Duration} (h : d.IsWhole) : d.inMillis = d := by
  have hn := inMillis_nanos h.2
  rw [Nat.div_mul_cancel h.1] at hn
  cases d
  exact congrArg Duration.mk hn

theorem inMillis_eq_zero {d : Duration} (h : d.wholeMillis < 2 ^ 64) : d.inMillis = .zero ↔ d.nanos < 10 ^ 6 := by
  have hn := inMillis_nanos h
  constructor
  · intro hz
    rw [hz, show zero.nanos = 0 from rfl] at hn
    omega
  · intro hlt
    rw [Nat.div_eq_of_lt hlt, Nat.zero_mul] at hn
    exact congrArg Duration.mk hn

theorem inMillis_ne_forever (d : Duration) : d.inMillis ≠ .forever := by
  intro h
  have hn : d.millis.toNat * 10 ^ 6 = 2 ^ 64 * 10 ^ 9 - 1 := congrArg Duration.nanos h
  omega

theorem inMillis_mono {d e : Duration} (h : d.nanos ≤ e.nanos) (he : e.wholeMillis < 2 ^ 64) :
    d.inMillis.nanos ≤ e.inMillis.nanos := by
  have hd : d.wholeMillis ≤ e.wholeMillis := Nat.div_le_div_right h
  rw [inMillis_nanos he, inMillis_nanos (Nat.lt_of_le_of_lt hd he)]
  exact Nat.mul_le_mul_right _ hd

theorem durationJson_inMillis (d : Duration) : durationJson d.inMillis = durationJson d := by
  unfold durationJson inMillis
  rw [millis_ofMillis]

end Duration

/-! ## Fields -/

namespace Document

theorem natural?_ofNat (n : UInt64) : (Json.ofNat n).document.natural? = some n := rfl

theorem bool?_bool (b : Bool) : (Json.bool b).document.bool? = some b := rfl

theorem duration?_durationJson (d : Duration) : (durationJson d).document.duration? = some d.inMillis := rfl

theorem below?_ofNat (n : UInt32) : (Json.ofNat n.toUInt64).document.below? (2 ^ 32) = some n.toNat := by
  unfold below?
  rw [natural?_ofNat, Option.bind_some, UInt32.toNat_toUInt64, if_pos n.toNat_lt]

end Document

namespace Float

/-- Whether the text of a double is read as that double. -/
def ReadsBack (x : Float) : Prop := (Document.ofString? (Json.ofFloat x).text).bind Document.float? = some x

theorem ReadsBack.float?_ofFloat {x : Float} (h : ReadsBack x) : (Json.ofFloat x).document.float? = some x := by
  unfold ReadsBack at h
  rwa [Document.ofString?_text, Option.bind_some] at h

end Float

/-! ## Settings in milliseconds -/

namespace RetryPolicy

def inMillis (p : RetryPolicy) : RetryPolicy :=
  { p with initialBackoff := p.initialBackoff.inMillis, maxBackoff := p.maxBackoff.inMillis }

theorem toJson_inMillis (p : RetryPolicy) : p.inMillis.toJson = p.toJson := by
  unfold toJson inMillis
  simp only [Duration.durationJson_inMillis]

theorem ofDocument?_document {p : RetryPolicy} (hx : Float.ReadsBack p.multiplier) (surplus : Surplus) :
    ofDocument? surplus p.toJson.document = some p.inMillis := by
  unfold ofDocument? toJson
  rw [Document.settings?_document]
  · simp only [Option.bind_eq_bind, Option.bind_some, List.map_cons]
    rw [Record.optional_bind rfl (Document.below?_ofNat p.maxAttempts),
      Record.optional_bind rfl (Document.duration?_durationJson p.initialBackoff),
      Record.optional_bind rfl (Document.duration?_durationJson p.maxBackoff),
      Record.optional_bind rfl hx.float?_ofFloat]
    simp [inMillis]
  · rfl
  · decide

end RetryPolicy

namespace BatchSettings

def inMillis (b : BatchSettings) : BatchSettings := { b with flushInterval := b.flushInterval.inMillis }

theorem toJson_inMillis (b : BatchSettings) : b.inMillis.toJson = b.toJson := by
  unfold toJson inMillis
  rw [Duration.durationJson_inMillis]

theorem ofDocument?_document (b : BatchSettings) (surplus : Surplus) :
    ofDocument? surplus b.toJson.document = some b.inMillis := by
  unfold ofDocument? toJson
  rw [Document.settings?_document]
  · simp only [Option.bind_eq_bind, Option.bind_some, List.map_cons]
    rw [Record.optional_bind rfl (Document.natural?_ofNat b.maxSize),
      Record.optional_bind rfl (Document.duration?_durationJson b.flushInterval)]
    rfl
  · rfl
  · decide

end BatchSettings

namespace PressureSettings

def inMillis (p : PressureSettings) : PressureSettings := { p with checkInterval := p.checkInterval.inMillis }

theorem toJson_inMillis (p : PressureSettings) : p.inMillis.toJson = p.toJson := by
  unfold toJson inMillis
  rw [Duration.durationJson_inMillis]

theorem ofDocument?_document (p : PressureSettings) (surplus : Surplus) :
    ofDocument? surplus p.toJson.document = some p.inMillis := by
  unfold ofDocument? toJson
  rw [Document.settings?_document]
  · simp only [Option.bind_eq_bind, Option.bind_some, List.map_cons]
    rw [Record.optional_bind rfl (Document.bool?_bool p.enabled),
      Record.optional_bind rfl (Document.duration?_durationJson p.checkInterval)]
    rfl
  · rfl
  · decide

end PressureSettings

namespace Settings

def inMillis (s : Settings) : Settings :=
  { s with
    shutdownTimeout := s.shutdownTimeout.inMillis
    flushTimeout := s.flushTimeout.inMillis
    retry := s.retry.inMillis
    batch := s.batch.inMillis
    pressure := s.pressure.inMillis }

theorem toJson_inMillis (s : Settings) : s.inMillis.toJson = s.toJson := by
  unfold toJson inMillis
  simp only [Duration.durationJson_inMillis, RetryPolicy.toJson_inMillis, BatchSettings.toJson_inMillis,
    PressureSettings.toJson_inMillis]

theorem ofDocument?_document {s : Settings} (hx : Float.ReadsBack s.retry.multiplier) (surplus : Surplus) :
    ofDocument? surplus s.toJson.document = some s.inMillis := by
  unfold ofDocument? toJson
  rw [Document.settings?_document]
  · simp only [Option.bind_eq_bind, Option.bind_some, List.map_cons]
    rw [Record.optional_bind rfl (Document.natural?_ofNat s.queueCapacity),
      Record.optional_bind rfl (Document.duration?_durationJson s.shutdownTimeout),
      Record.optional_bind rfl (Document.duration?_durationJson s.flushTimeout),
      Record.optional_bind rfl (Document.bool?_bool s.reportLosses)]
    -- Whether there is a directory decides what is written for it.
    refine (Record.optional_bind rfl (?_ : _ = some s.cacheDir) _ _).trans ?_
    · cases s.cacheDir with
      | none => rfl
      | some dir => rfl
    rw [Record.optional_bind rfl (Document.natural?_ofNat s.cacheCapacity),
      Record.optional_bind rfl (RetryPolicy.ofDocument?_document hx surplus),
      Record.optional_bind rfl (s.batch.ofDocument?_document surplus),
      Record.optional_bind rfl (s.pressure.ofDocument?_document surplus)]
    rfl
  · rfl
  · decide

theorem ofJsonText?_text {s : Settings} (hx : Float.ReadsBack s.retry.multiplier) :
    ofJsonText? s.text = some s.inMillis := by
  unfold ofJsonText? text
  rw [Document.ofString?_text, Option.bind_some, ofDocument?_document hx]

/-- Whether every duration has whole milliseconds. -/
structure IsWhole (s : Settings) : Prop where
  shutdown : s.shutdownTimeout.IsWhole
  flush : s.flushTimeout.IsWhole
  initial : s.retry.initialBackoff.IsWhole
  most : s.retry.maxBackoff.IsWhole
  batch : s.batch.flushInterval.IsWhole
  pressure : s.pressure.checkInterval.IsWhole

theorem IsWhole.inMillis {s : Settings} (h : s.IsWhole) : s.inMillis = s := by
  unfold Settings.inMillis RetryPolicy.inMillis BatchSettings.inMillis PressureSettings.inMillis
  rw [h.shutdown.inMillis, h.flush.inMillis, h.initial.inMillis, h.most.inMillis, h.batch.inMillis,
    h.pressure.inMillis]

end Settings

/-! ## Valid settings -/

theorem RetryPolicy.validate_ok (p : RetryPolicy) : p.validate = .ok () ↔
    ¬ p.maxAttempts < 1 ∧ ¬ (!p.multiplier.isFinite || p.multiplier < 1.0) = true ∧
      p.initialBackoff.nanos ≤ p.maxBackoff.nanos := by
  have hle : p.initialBackoff.nanos ≤ p.maxBackoff.nanos ↔ ¬ p.maxBackoff < p.initialBackoff := Nat.not_lt.symm
  rw [hle]
  unfold validate
  by_cases ha : p.maxAttempts < 1
  · simp [ha]
  · rw [if_neg ha]
    by_cases hx : (!p.multiplier.isFinite || p.multiplier < 1.0) = true
    · simp [hx]
    · rw [if_neg hx]
      by_cases hd : p.maxBackoff < p.initialBackoff
      · simp [hd]
      · simp [ha, hx, hd]

theorem BatchSettings.validate_ok (b : BatchSettings) : b.validate = .ok () ↔
    ¬ b.maxSize < 1 ∧ b.flushInterval ≠ .zero ∧ b.flushInterval ≠ .forever := by
  unfold validate
  by_cases hn : b.maxSize < 1
  · simp [hn]
  · rw [if_neg hn]
    by_cases hd : b.flushInterval = .zero ∨ b.flushInterval = .forever
    · rw [if_pos hd]
      rcases hd with hd | hd <;> simp [hd]
    · rw [if_neg hd]
      simp [hn, not_or.mp hd]

theorem Settings.validate_ok (s : Settings) : s.validate = .ok () ↔
    ¬ s.queueCapacity < 1 ∧ ¬ s.cacheCapacity < 1 ∧
      (s.pressure.enabled = true → s.pressure.checkInterval ≠ .zero) ∧
      s.retry.validate = .ok () ∧ s.batch.validate = .ok () := by
  unfold validate
  by_cases hq : s.queueCapacity < 1
  · simp [hq]
  · rw [if_neg hq]
    by_cases hc : s.cacheCapacity < 1
    · simp [hc]
    · rw [if_neg hc]
      by_cases hp : s.pressure.enabled = true ∧ s.pressure.checkInterval = .zero
      · simp [hp]
      · rw [if_neg hp]
        rw [not_and] at hp
        cases hr : s.retry.validate with
        | error e => simp
        | ok u =>
          constructor
          · intro h
            exact ⟨hq, hc, hp, rfl, h⟩
          · rintro ⟨-, -, -, -, h⟩
            exact h

theorem RetryPolicy.validate_inMillis {p : RetryPolicy} (hv : p.validate = .ok ())
    (hm : p.maxBackoff.wholeMillis < 2 ^ 64) : p.inMillis.validate = .ok () := by
  obtain ⟨hattempts, hmultiplier, hle⟩ := p.validate_ok.mp hv
  exact p.inMillis.validate_ok.mpr ⟨hattempts, hmultiplier, Duration.inMillis_mono hle hm⟩

theorem BatchSettings.validate_inMillis {b : BatchSettings} (hv : b.validate = .ok ())
    (hm : b.flushInterval.wholeMillis < 2 ^ 64) : b.inMillis.validate = .ok () ↔ 10 ^ 6 ≤ b.flushInterval.nanos := by
  obtain ⟨hsize, -, -⟩ := b.validate_ok.mp hv
  have hz : b.inMillis.flushInterval = .zero ↔ b.flushInterval.nanos < 10 ^ 6 := Duration.inMillis_eq_zero hm
  have hf : b.inMillis.flushInterval ≠ .forever := b.flushInterval.inMillis_ne_forever
  rw [b.inMillis.validate_ok, ne_eq, hz, Nat.not_lt]
  constructor
  · rintro ⟨-, h, -⟩
    exact h
  · intro h
    exact ⟨hsize, h, hf⟩

namespace Settings

/-- Valid settings that are written as text are read from it with the whole milliseconds of their durations, modulo
`2^64`, and with everything else as it was; and what is read is written as the same text. If all durations have whole
milliseconds, and less than `2^64` of them, what is read is what was written. It is valid as long as no interval in use
is shorter than a millisecond, and neither they nor the longest pause have as many as `2^64`. -/
theorem reads_back_in_millis {s : Settings} (hv : s.validate = .ok ()) (hx : Float.ReadsBack s.retry.multiplier) :
    ∃ back, ofJsonText? s.text = some back ∧ back = s.inMillis ∧ back.text = s.text ∧ (s.IsWhole → back = s) ∧
      (s.retry.maxBackoff.wholeMillis < 2 ^ 64 → s.batch.flushInterval.wholeMillis < 2 ^ 64 →
        (s.pressure.enabled = true → s.pressure.checkInterval.wholeMillis < 2 ^ 64) →
        (back.validate = .ok () ↔ 10 ^ 6 ≤ s.batch.flushInterval.nanos ∧
          (s.pressure.enabled = true → 10 ^ 6 ≤ s.pressure.checkInterval.nanos))) := by
  obtain ⟨hqueue, hcache, -, hretry, hbatch⟩ := s.validate_ok.mp hv
  refine ⟨s.inMillis, ofJsonText?_text hx, rfl, ?_, IsWhole.inMillis, ?_⟩
  · unfold text
    rw [toJson_inMillis]
  · intro hmost hflush hcheck
    have hr : s.inMillis.retry.validate = .ok () := RetryPolicy.validate_inMillis hretry hmost
    have hb : s.inMillis.batch.validate = .ok () ↔ 10 ^ 6 ≤ s.batch.flushInterval.nanos :=
      BatchSettings.validate_inMillis hbatch hflush
    have hp : (s.inMillis.pressure.enabled = true → s.inMillis.pressure.checkInterval ≠ .zero) ↔
        (s.pressure.enabled = true → 10 ^ 6 ≤ s.pressure.checkInterval.nanos) := by
      apply forall_congr'
      intro he
      rw [← Nat.not_lt, ← Duration.inMillis_eq_zero (hcheck he)]
      exact Iff.rfl
    rw [s.inMillis.validate_ok, hb, hp]
    constructor
    · rintro ⟨-, -, hp, -, hb⟩
      exact ⟨hb, hp⟩
    · rintro ⟨hb, hp⟩
      exact ⟨hqueue, hcache, hp, hr, hb⟩

/-- Files in a directory with an odd name, checks, and durations with a fraction of a millisecond. -/
def fractional : Settings :=
  { small with
    cacheDir := some "a\n\"/é"
    flushTimeout := .forever
    retry := ⟨5, ⟨10000001⟩, ⟨10000002⟩, 1.5⟩
    batch := ⟨4, ⟨1999999⟩⟩
    pressure := ⟨true, ⟨1000000⟩⟩ }

theorem reads_back_in_millis_fractional :
    fractional.validate = .ok () ∧
    ∃ back, ofJsonText? fractional.text = some back ∧ back.text = fractional.text ∧ back.validate = .ok () ∧
      back.batch.flushInterval = .ofMillis 1 ∧ back.cacheDir = some "a\n\"/é" := by
  have hv : fractional.validate = .ok () := by decide +kernel
  have hx : Float.ReadsBack fractional.retry.multiplier := by
    unfold Float.ReadsBack
    decide +kernel
  obtain ⟨back, hread, hback, htext, -, hvalid⟩ := reads_back_in_millis hv hx
  have hok := (hvalid (by decide) (by decide) fun _ => by decide).mpr ⟨by decide, fun _ => by decide⟩
  refine ⟨hv, back, hread, htext, hok, ?_, ?_⟩
  · rw [hback]
    decide
  · rw [hback]
    rfl

/-- Batches every half a millisecond. -/
def rapid : Settings := { small with batch := ⟨4, ⟨500000⟩⟩ }

/-- A pause of up to as many milliseconds as a word has values. -/
def patient : Settings := { small with retry := ⟨3, .ofMillis 10, ⟨2 ^ 64 * 10 ^ 6⟩, 2.0⟩ }

/-- Valid settings may be written as text that is read as settings which are not valid. -/
theorem reads_back_invalid :
    rapid.validate = .ok () ∧ Float.ReadsBack rapid.retry.multiplier ∧
    (ofJsonText? rapid.text).map validate = some (.error (.flushInterval .zero)) ∧
    patient.validate = .ok () ∧ Float.ReadsBack patient.retry.multiplier ∧
    (ofJsonText? patient.text).map validate =
      some (.error (.retryPolicy "initial_backoff 10ms exceeds max_backoff 0ns")) := by
  have htwo : Float.ReadsBack 2.0 := by
    unfold Float.ReadsBack
    decide +kernel
  have hrapid : ofJsonText? rapid.text = some rapid.inMillis := ofJsonText?_text htwo
  have hpatient : ofJsonText? patient.text = some patient.inMillis := ofJsonText?_text htwo
  rw [hrapid, hpatient]
  exact ⟨by decide +kernel, htwo, by decide +kernel, by decide +kernel, htwo, by decide +kernel⟩

end Settings

end Courier
