/-
# NetFT.Ros.StatusText — what the description of a status word says (`status.cpp`, `ros/diagnostics.cpp`).

`classify_status` looks at the whole word, `decode_status` at the bits that its table has.  The table has no
entry for bits 0 and 15.

* `decodeStatus_eq`: the description joins the entries of the set bits, the highest first.
* `evaluate_spells`: when the diagnostics report a device error, their message ends with it.
* **`described_iff`**: the rated words of a set are reported completely and are told apart exactly when bits
  0 and 15 are clear in all of them.
-/
import Mathlib.Data.Nat.Bitwise
import Mathlib.Data.Set.Function
import NetFT.Library.Separated
import NetFT.Ros.Evaluator

namespace NetFT.Ros

set_option autoImplicit false

open Library

/-! ## Bits and entries -/

/-- The word with one bit. -/
def statusMask (bit : Nat) : UInt32 := UInt32.ofNat (2 ^ bit)

/-- The entry of the table for a bit. -/
def statusName (bit : Nat) : Option String := kStatusBits.lookup (statusMask bit)

/-- The bits that are set in a word, the highest first. -/
def setBits (status : UInt32) : List Nat :=
  (List.range 32).reverse.filter fun bit => status.toNat.testBit bit

/-- The entries of the set bits, as the loop of `decode_status` meets them. -/
def statusEntries (status : UInt32) : List String :=
  (kStatusBits.filter fun bit => status &&& bit.1 ≠ 0).map Prod.snd

/-- The table goes from the highest bit to the lowest. -/
theorem kStatusBits_eq : kStatusBits = (List.range 32).reverse.filterMap fun bit =>
    (statusName bit).map fun name => (statusMask bit, name) :=
  rfl

/-- A name is that of one bit only. -/
theorem kStatusBits_name_injective {bit bit' : UInt32 × String} (h : bit ∈ kStatusBits)
    (h' : bit' ∈ kStatusBits) (hname : bit.2 = bit'.2) : bit = bit' :=
  List.inj_on_of_nodup_map (by decide +kernel : (kStatusBits.map Prod.snd).Nodup) h h' hname

/-- No name has a comma, or could be taken for "healthy". -/
theorem kStatusBits_entry : ∀ bit ∈ kStatusBits, bit.2 ≠ "" ∧ bit.2 ≠ "healthy" ∧ ',' ∉ bit.2.toList := by
  decide +kernel

/-- Every bit but two has an entry. -/
theorem statusName_isSome : ∀ bit < 32, bit ≠ 0 → bit ≠ 15 → (statusName bit).isSome := by
  decide +kernel

theorem toNat_statusMask {bit : Nat} (h : bit < 32) : (statusMask bit).toNat = 2 ^ bit := by
  have hlt : 2 ^ bit < 2 ^ 32 := Nat.pow_lt_pow_right (by decide) h
  simpa [statusMask] using hlt

theorem and_statusMask {bit : Nat} (h : bit < 32) (status : UInt32) :
    status &&& statusMask bit ≠ 0 ↔ status.toNat.testBit bit = true := by
  rw [ne_eq, ← UInt32.toNat_inj, UInt32.toNat_and, toNat_statusMask h, Nat.and_two_pow]
  cases status.toNat.testBit bit <;> simp

theorem mem_setBits {status : UInt32} {bit : Nat} :
    bit ∈ setBits status ↔ bit < 32 ∧ status.toNat.testBit bit = true := by
  simp [setBits]

/-- A bit stands in the table under its name. -/
theorem mem_kStatusBits {bit : Nat} {name : String} (h : bit < 32) :
    (statusMask bit, name) ∈ kStatusBits ↔ statusName bit = some name := by
  rw [kStatusBits_eq]
  simp only [List.mem_filterMap, List.mem_reverse, List.mem_range, Option.map_eq_some_iff, Prod.mk.injEq]
  constructor
  · rintro ⟨bit', hlt, _, hname, hmask, rfl⟩
    have hpow : 2 ^ bit' = 2 ^ bit := by
      rw [← toNat_statusMask hlt, ← toNat_statusMask h, hmask]
    rwa [← Nat.pow_right_injective le_rfl hpow]
  · intro hname
    exact ⟨bit, h, name, hname, rfl, rfl⟩

/-- The entries are the names of the set bits. -/
theorem statusEntries_eq (status : UInt32) :
    statusEntries status = (setBits status).filterMap statusName := by
  unfold statusEntries setBits
  rw [kStatusBits_eq, List.filter_filterMap, List.map_filterMap, List.filterMap_filter]
  refine List.filterMap_congr fun bit hbit => ?_
  have hmask := and_statusMask (by simpa using hbit : bit < 32) status
  cases hname : statusName bit with
  | none => simp
  | some name => cases htest : status.toNat.testBit bit <;> simp_all

/-- An entry is in the description exactly when its bit is set. -/
theorem mem_statusEntries {bit : UInt32 × String} (h : bit ∈ kStatusBits) (status : UInt32) :
    bit.2 ∈ statusEntries status ↔ status &&& bit.1 ≠ 0 := by
  simp only [statusEntries, List.mem_map, List.mem_filter, decide_eq_true_eq]
  constructor
  · rintro ⟨bit', ⟨hmem, hset⟩, hname⟩
    rwa [← kStatusBits_name_injective hmem h hname]
  · intro hset
    exact ⟨bit, ⟨h, hset⟩, rfl⟩

theorem exists_of_mem_statusEntries {status : UInt32} {entry : String} (h : entry ∈ statusEntries status) :
    ∃ bit ∈ kStatusBits, bit.2 = entry := by
  obtain ⟨bit, hbit, hname⟩ := List.mem_map.mp h
  exact ⟨bit, List.mem_of_mem_filter hbit, hname⟩

theorem entry_of_mem {status : UInt32} {entry : String} (h : entry ∈ statusEntries status) :
    Separated.Entry ',' entry.toList := by
  obtain ⟨bit, hbit, rfl⟩ := exists_of_mem_statusEntries h
  have := kStatusBits_entry bit hbit
  exact ⟨by simpa using this.1, this.2.2⟩

/-! ## The description -/

/-- The loop of `decode_status` joins the entries. -/
theorem decodeStatus_eq {status : UInt32} (h : status ≠ 0) :
    decodeStatus status = ", ".intercalate (statusEntries status) := by
  have hne : ∀ entry ∈ statusEntries status, entry ≠ "" := by
    intro entry hentry
    simpa using (entry_of_mem hentry).1
  -- the loop over the whole table passes over the bits that are clear
  rw [← Separated.append_each hne, statusEntries, List.foldl_map, List.foldl_filter]
  simp [decodeStatus, h, Separated.append]

/-- An empty description has no entry. -/
theorem statusEntries_eq_nil {status : UInt32} (h : status ≠ 0) (htext : decodeStatus status = "") :
    statusEntries status = [] := by
  have hjoined : ", ".intercalate (statusEntries status) = ", ".intercalate [] := by
    rw [← decodeStatus_eq h, htext, String.intercalate_nil]
  exact Separated.joined_injective (c := ',') rfl (fun _ => entry_of_mem) (by simp) hjoined

theorem decodeStatus_zero : decodeStatus 0 = "healthy" := rfl

/-- No other word is described as healthy. -/
theorem decodeStatus_ne_healthy {status : UInt32} (h : status ≠ 0) : decodeStatus status ≠ "healthy" := by
  intro htext
  have hjoined : ", ".intercalate ["healthy"] = ", ".intercalate (statusEntries status) := by
    rw [← decodeStatus_eq h, htext, String.intercalate_singleton]
  have hhealthy : ∀ entry ∈ ["healthy"], Separated.Entry ',' entry.toList := by
    simp [Separated.Entry]
  have hentries := Separated.joined_injective (c := ',') rfl hhealthy (fun _ => entry_of_mem) hjoined
  have hmem : "healthy" ∈ statusEntries status := hentries ▸ List.mem_singleton_self _
  obtain ⟨bit, hbit, hname⟩ := exists_of_mem_statusEntries hmem
  exact (kStatusBits_entry bit hbit).2.1 hname

/-- Words that are described alike agree in every bit that has an entry. -/
theorem testBit_eq_of_decodeStatus_eq {status status' : UInt32} (h : status ≠ 0) (h' : status' ≠ 0)
    (htext : decodeStatus status = decodeStatus status') {bit : Nat} {name : String} (hlt : bit < 32)
    (hname : statusName bit = some name) : status.toNat.testBit bit = status'.toNat.testBit bit := by
  rw [decodeStatus_eq h, decodeStatus_eq h'] at htext
  have hentries := Separated.joined_injective (c := ',') rfl (fun entry => entry_of_mem)
    (fun entry => entry_of_mem) htext
  have hmem := (mem_kStatusBits hlt).mpr hname
  rw [Bool.eq_iff_iff, ← and_statusMask hlt, ← and_statusMask hlt, ← mem_statusEntries hmem,
    ← mem_statusEntries hmem, hentries]

/-- The text is not empty and has one entry for each set bit, the highest first. -/
structure Reports (status : UInt32) (text : String) : Prop where
  nonempty : text ≠ ""
  entries : ∃ entries, text = ", ".intercalate entries ∧
    List.Forall₂ (fun bit entry => (statusMask bit, entry) ∈ kStatusBits) (setBits status) entries

/-- Bits 0 and 15 are clear. -/
def Tabled (status : UInt32) : Prop := status &&& 0x8001 = 0

instance : DecidablePred Tabled := fun status => inferInstanceAs (Decidable (status &&& 0x8001 = 0))

/-- Two bits have no name. -/
theorem tabled_iff (status : UInt32) :
    Tabled status ↔ status.toNat.testBit 0 = false ∧ status.toNat.testBit 15 = false := by
  have hmask : (0x8001 : UInt32).toNat = 2 ^ 0 ||| 2 ^ 15 := by decide
  rw [Tabled, ← UInt32.toNat_inj, UInt32.toNat_and, hmask, Nat.and_or_distrib_left, UInt32.toNat_zero,
    Nat.or_eq_zero_iff, Nat.and_two_pow, Nat.and_two_pow]
  simp

theorem lt_of_testBit {status : UInt32} {bit : Nat} (h : status.toNat.testBit bit = true) : bit < 32 :=
  (Nat.pow_lt_pow_iff_right (by decide)).mp
    ((Nat.ge_two_pow_of_testBit h).trans_lt (UInt32.toNat_lt status))

theorem exists_mem_setBits {status : UInt32} (h : status ≠ 0) : ∃ bit, bit ∈ setBits status := by
  have hne : status.toNat ≠ 0 := fun hzero => h (UInt32.toNat_inj.mp hzero)
  obtain ⟨bit, hset⟩ := Nat.exists_testBit_of_ne_zero hne
  exact ⟨bit, mem_setBits.mpr ⟨lt_of_testBit hset, hset⟩⟩

theorem Tabled.name_isSome {status : UInt32} (h : Tabled status) {bit : Nat} (hlt : bit < 32)
    (hset : status.toNat.testBit bit = true) : (statusName bit).isSome := by
  obtain ⟨h0, h15⟩ := (tabled_iff status).mp h
  refine statusName_isSome bit hlt ?_ ?_
  · rintro rfl
    simp [h0] at hset
  · rintro rfl
    simp [h15] at hset

/-- Where both bits are clear, nothing is left out. -/
theorem Tabled.reports {status : UInt32} (h : Tabled status) (hne : status ≠ 0) :
    Reports status (decodeStatus status) := by
  have hname : ∀ bit ∈ setBits status, statusName bit = some ((statusName bit).getD "") := by
    intro bit hbit
    obtain ⟨hlt, hset⟩ := mem_setBits.mp hbit
    obtain ⟨name, hname⟩ := Option.isSome_iff_exists.mp (h.name_isSome hlt hset)
    simp [hname]
  have hentries : statusEntries status = (setBits status).map fun bit => (statusName bit).getD "" := by
    rw [statusEntries_eq, List.filterMap_congr hname]
    exact congrFun List.filterMap_eq_map _
  constructor
  · intro hempty
    have hnone := statusEntries_eq_nil hne hempty
    rw [hentries, List.map_eq_nil_iff] at hnone
    obtain ⟨bit, hbit⟩ := exists_mem_setBits hne
    exact List.ne_nil_of_mem hbit hnone
  · refine ⟨statusEntries status, decodeStatus_eq hne, ?_⟩
    rw [hentries, List.forall₂_map_right_iff, List.forall₂_same]
    exact fun bit hbit => (mem_kStatusBits (mem_setBits.mp hbit).1).mpr (hname bit hbit)

theorem Reports.name_isSome {status : UInt32} {text : String} (h : Reports status text) {bit : Nat}
    (hbit : bit ∈ setBits status) : (statusName bit).isSome := by
  obtain ⟨entries, -, hentries⟩ := h.entries
  obtain ⟨hlength, hentry⟩ := List.forall₂_iff_get.mp hentries
  obtain ⟨i, rfl⟩ := List.get_of_mem hbit
  have hmem := hentry i i.isLt (hlength ▸ i.isLt)
  rw [mem_kStatusBits (mem_setBits.mp hbit).1] at hmem
  exact Option.isSome_iff_exists.mpr ⟨_, hmem⟩

/-- A status that is reported in full has no other bit. -/
theorem Reports.tabled {status : UInt32} {text : String} (h : Reports status text) : Tabled status := by
  -- a bit without an entry cannot be listed, so it is not set
  have hclear : ∀ bit < 32, (statusName bit).isSome = false → status.toNat.testBit bit = false := by
    intro bit hlt hnone
    by_contra hset
    have hnamed := h.name_isSome (mem_setBits.mpr ⟨hlt, by simpa only [Bool.not_eq_false] using hset⟩)
    simp [hnone] at hnamed
  exact (tabled_iff status).mpr
    ⟨hclear 0 (by decide) (by decide +kernel), hclear 15 (by decide) (by decide +kernel)⟩

/-- Words with both bits clear are told apart by their descriptions. -/
theorem Tabled.eq_of_decodeStatus_eq {status status' : UInt32} (h : Tabled status) (h' : Tabled status')
    (htext : decodeStatus status = decodeStatus status') : status = status' := by
  rcases eq_or_ne status 0 with rfl | hne
  · by_contra hne'
    exact decodeStatus_ne_healthy (Ne.symm hne') (by rw [← htext, decodeStatus_zero])
  rcases eq_or_ne status' 0 with rfl | hne'
  · exact absurd (htext.trans decodeStatus_zero) (decodeStatus_ne_healthy hne)
  refine UInt32.toNat_inj.mp (Nat.eq_of_testBit_eq fun bit => ?_)
  have hagree : ∀ name, bit < 32 → statusName bit = some name →
      status.toNat.testBit bit = status'.toNat.testBit bit :=
    fun _ => testBit_eq_of_decodeStatus_eq hne hne' htext
  -- a bit that is set in either word has an entry
  rw [Bool.eq_iff_iff]
  constructor
  · intro hset
    obtain ⟨name, hname⟩ := Option.isSome_iff_exists.mp (h.name_isSome (lt_of_testBit hset) hset)
    rw [← hagree name (lt_of_testBit hset) hname, hset]
  · intro hset
    obtain ⟨name, hname⟩ := Option.isSome_iff_exists.mp (h'.name_isSome (lt_of_testBit hset) hset)
    rw [hagree name (lt_of_testBit hset) hname, hset]

/-! ## The device error of the diagnostics -/

/-- A device error is reported for a serious status only, and with its description. -/
def DiagnosticReport.Spells (report : DiagnosticReport) (status : UInt32) : Prop :=
  report.logKey = "device_error" →
    classifyStatus status = .Error ∧ report.message = "device error: " ++ decodeStatus status

section

variable {report : Int → String → String → DiagnosticReport} {status : UInt32} {p : Prop} [Decidable p]
  {level : Int} {message logKey : String} {r r' : DiagnosticReport}

theorem spells_ite (h : p → r.Spells status) (h' : ¬ p → r'.Spells status) :
    (if p then r else r').Spells status := by
  split_ifs with hp
  · exact h hp
  · exact h' hp

theorem Names.spells (h : Names report) (hkey : logKey ≠ "device_error") :
    (report level message logKey).Spells status :=
  fun hsame => absurd ((h level message logKey).2.symm.trans hsame) hkey

/-- A test of the cascade whose report has another key. -/
theorem Names.spells_ite (h : Names report) (hkey : logKey ≠ "device_error") (hr : r.Spells status) :
    (if p then report level message logKey else r).Spells status :=
  Ros.spells_ite (fun _ => h.spells hkey) fun _ => hr

end

theorem judge_spells {rates : RateSettings} {snapshot : Snapshot} {grown : Counters}
    {report : Int → String → String → DiagnosticReport} (h : Names report)
    (hmessage : ∀ level message logKey, (report level message logKey).message = message) :
    (judge rates snapshot grown report).Spells snapshot.health.lastStatus := by
  refine h.spells_ite (by decide) (h.spells_ite (by decide) ?_)
  refine spells_ite (fun herror _ => ⟨herror, hmessage _ _ _⟩) fun _ => ?_
  -- no test behind the status has its key
  refine h.spells_ite (by decide) (h.spells_ite (by decide) (h.spells_ite (by decide) ?_))
  refine h.spells_ite (by decide) (h.spells_ite (by decide) (h.spells_ite (by decide) ?_))
  refine h.spells_ite (by decide) (h.spells_ite (by decide) (h.spells_ite (by decide) ?_))
  exact h.spells_ite (by decide) (h.spells_ite (by decide) (h.spells (by decide)))

/-- A report of a device error spells the status. -/
theorem evaluate_spells (evaluator : DiagnosticEvaluator) (snapshot : Snapshot) :
    (evaluator.evaluate snapshot).1.Spells snapshot.health.lastStatus := by
  have hnames : Names fun level message logKey =>
      { level, message, values := reportValues evaluator.toRateSettings snapshot, logKey } :=
    fun _ _ _ => ⟨rfl, rfl⟩
  unfold DiagnosticEvaluator.evaluate
  cases snapshot.faulted with
  | true => exact hnames.spells (by decide)
  | false => exact judge_spells hnames fun _ _ _ => rfl

/-- The statuses of a set are reported without a gap: every rated word with an entry for each of its bits,
every device error with a description, and no two words alike. -/
structure Described (words : Set UInt32) : Prop where
  reported : ∀ status ∈ words, classifyStatus status = .Warn ∨ classifyStatus status = .Error →
    Reports status (decodeStatus status)
  shown : ∀ (evaluator : DiagnosticEvaluator) (snapshot : Snapshot), snapshot.health.lastStatus ∈ words →
    (evaluator.evaluate snapshot).1.logKey = "device_error" →
      (evaluator.evaluate snapshot).1.message ≠ "device error: "
  distinct : words.InjOn decodeStatus

theorem rated_iff (status : UInt32) :
    classifyStatus status = .Warn ∨ classifyStatus status = .Error ↔ status ≠ 0 := by
  unfold classifyStatus
  split_ifs <;> simp_all

/-- **No status bit goes unreported exactly where bits 0 and 15 are clear.** -/
theorem described_iff (words : Set UInt32) : Described words ↔ ∀ status ∈ words, Tabled status := by
  constructor
  · intro h status hmem
    rcases eq_or_ne status 0 with rfl | hne
    · decide
    · exact (h.reported status hmem ((rated_iff status).mpr hne)).tabled
  · intro h
    refine ⟨?_, ?_, ?_⟩
    · intro status hmem hrated
      exact (h status hmem).reports ((rated_iff status).mp hrated)
    · intro evaluator snapshot hmem hkey hmessage
      obtain ⟨herror, htext⟩ := evaluate_spells evaluator snapshot hkey
      have hreports := (h _ hmem).reports ((rated_iff _).mp (.inr herror))
      rw [htext] at hmessage
      exact hreports.nonempty (by simpa using hmessage)
    · intro status hmem status' hmem' htext
      exact (h status hmem).eq_of_decodeStatus_eq (h status' hmem') htext

def seriousSnapshot : Snapshot where
  health := { state := .Streaming, lastStatus := 0x00000001 }

/-- A word with bit 0 alone is a device error without a description, and with another bit set it has the
description that the other bit has alone. -/
theorem serious_status_undescribed :
    classifyStatus 0x00000001 = .Error ∧ decodeStatus 0x00000001 = "" ∧
      (∀ evaluator : DiagnosticEvaluator,
        (evaluator.evaluate seriousSnapshot).1.logKey = "device_error" ∧
          (evaluator.evaluate seriousSnapshot).1.message = "device error: ") ∧
      decodeStatus 0x80000001 = decodeStatus 0x80000000 ∧ ¬ Described Set.univ := by
  refine ⟨by decide, by decide +kernel, fun _ => ⟨rfl, rfl⟩, by decide +kernel, fun h => ?_⟩
  exact (h.reported 1 (Set.mem_univ _) (.inr (by decide))).nonempty (by decide +kernel)

end NetFT.Ros
