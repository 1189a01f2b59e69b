import Localview.SourceMap

/-! # Decoding source maps

Two facts on `SourceMap.parse`.  No input makes it panic: each step that could is reached
with operands for which it does not (`NoPanic`).  And a map that parses is well formed
(`SourceMap.WellFormed`).
-/
namespace Localview
open EarlyReturn List

/-! ## No panics -/

/-- A call that returns a value or an error. -/
def NoPanic {α : Type} (x : Parse α) : Prop := x ≠ .error .panic

section
variable {α β : Type} {x : Parse α} {f : α → Parse β} {a b : Int} {m n shift : Nat}
  {e : SourceMapError}

theorem NoPanic.bind (hx : NoPanic x) (hf : ∀ a, x = .ok a → NoPanic (f a)) :
    NoPanic (x >>= f) := by
  intro h
  rw [bind_eq_error] at h
  rcases h with h | ⟨a, ha, h⟩
  · exact hx h
  · exact hf a ha h

theorem noPanic_ok {a : α} : NoPanic (.ok a : Parse α) := nofun

theorem noPanic_rejectIf {bad : Prop} [Decidable bad] : NoPanic (rejectIf bad (.error e)) := by
  intro h
  rw [rejectIf_eq_error] at h
  cases h.2

/-- After a check the rest is reached only where the check passes. -/
theorem noPanic_reject {bad : Prop} [Decidable bad] {f : Unit → Parse β}
    (h : ¬bad → NoPanic (f ())) : NoPanic (rejectIf bad (.error e) >>= f) :=
  noPanic_rejectIf.bind fun _ hok => h (rejectIf_eq_ok.mp hok)

theorem noPanic_okOr {value : Option α} : NoPanic (okOr value (.error e)) := by
  cases value <;> nofun

theorem noPanic_checkedAddI64 : NoPanic (checkedAddI64 a b) :=
  noPanic_reject fun _ => noPanic_ok

theorem noPanic_checkedAddU64 : NoPanic (checkedAddU64 m n) :=
  noPanic_reject fun _ => noPanic_ok

theorem noPanic_tryFromU32 : NoPanic (tryFromU32 a e) :=
  noPanic_reject fun _ => noPanic_ok

theorem checkedAddI64_ok {r : Int} : checkedAddI64 a b = .ok r ↔ IsI64 (a + b) ∧ a + b = r := by
  unfold checkedAddI64
  rw [rejectIf_bind_eq_ok, not_not]
  exact and_congr_right fun _ => ⟨Except.ok.inj, congrArg Except.ok⟩

theorem checkedAddU64_ok {r : Nat} : checkedAddU64 m n = .ok r ↔ m + n ≤ u64Max ∧ m + n = r := by
  unfold checkedAddU64
  rw [rejectIf_bind_eq_ok, not_lt]
  exact and_congr_right fun _ => ⟨Except.ok.inj, congrArg Except.ok⟩

theorem tryFromU32_ok {r : Nat} : tryFromU32 a e = .ok r ↔ (0 ≤ a ∧ a < 2 ^ 32) ∧ a.toNat = r := by
  unfold tryFromU32
  rw [rejectIf_bind_eq_ok, not_not]
  exact and_congr_right fun _ => ⟨Except.ok.inj, congrArg Except.ok⟩

theorem plainAddI64_ok {r : Int} : plainAddI64 a b = .ok r ↔ IsI64 (a + b) ∧ a + b = r := by
  unfold plainAddI64
  rw [rejectIf_bind_eq_ok, not_not]
  exact and_congr_right fun _ => ⟨Except.ok.inj, congrArg Except.ok⟩

theorem plainAddI64_eq (h : IsI64 (a + b)) : plainAddI64 a b = .ok (a + b) :=
  plainAddI64_ok.mpr ⟨h, rfl⟩

theorem plainNegI64_eq (h : IsI64 (-a)) : plainNegI64 a = .ok (-a) := by
  unfold plainNegI64
  rw [rejectIf_bind_eq_ok, not_not]
  exact ⟨h, rfl⟩

theorem shiftRightU64_eq (h : shift < 64) : shiftRightU64 n shift = .ok (n / 2 ^ shift) := by
  unfold shiftRightU64
  rw [rejectIf_bind_eq_ok, not_le]
  exact ⟨h, rfl⟩

theorem shiftLeftU64_eq (h : shift < 64) : shiftLeftU64 n shift = .ok (n * 2 ^ shift % 2 ^ 64) := by
  unfold shiftLeftU64
  rw [rejectIf_bind_eq_ok, not_le]
  exact ⟨h, rfl⟩

/-- What is within a shifted limit is shifted without loss. -/
theorem shiftLeft_lossless (h : n ≤ u64Max / 2 ^ shift) : n * 2 ^ shift % 2 ^ 64 = n * 2 ^ shift := by
  have hle : n * 2 ^ shift ≤ u64Max := (Nat.le_div_iff_mul_le (Nat.two_pow_pos shift)).mp h
  apply Nat.mod_eq_of_lt
  exact Nat.lt_of_le_of_lt hle (by decide)

/-- A digit is accumulated exactly, or not at all. -/
theorem accumulateDigit_ok {accumulated digit r : Nat} :
    accumulateDigit accumulated shift digit = .ok r ↔
      shift < 64 ∧ accumulated + digit % 32 * 2 ^ shift ≤ u64Max ∧
        accumulated + digit % 32 * 2 ^ shift = r := by
  unfold accumulateDigit
  rw [rejectIf_bind_eq_ok, not_le]
  refine and_congr_right fun hshift => ?_
  rw [shiftRightU64_eq hshift]
  show (rejectIf _ _ >>= fun _ => _) = _ ↔ _
  rw [rejectIf_bind_eq_ok, not_lt, shiftLeftU64_eq hshift]
  show _ ∧ checkedAddU64 _ _ = _ ↔ _
  rw [checkedAddU64_ok]
  constructor
  · rintro ⟨hpayload, hsum, rfl⟩
    rw [shiftLeft_lossless hpayload] at hsum ⊢
    exact ⟨hsum, rfl⟩
  · rintro ⟨hsum, rfl⟩
    have hpayload : digit % 32 ≤ u64Max / 2 ^ shift :=
      (Nat.le_div_iff_mul_le (Nat.two_pow_pos shift)).mpr (by omega)
    rw [shiftLeft_lossless hpayload]
    exact ⟨hpayload, hsum, rfl⟩

theorem noPanic_accumulateDigit {accumulated digit : Nat} :
    NoPanic (accumulateDigit accumulated shift digit) := by
  unfold accumulateDigit
  refine noPanic_reject fun hshift => ?_
  rw [not_le] at hshift
  rw [shiftRightU64_eq hshift, shiftLeftU64_eq hshift]
  exact noPanic_reject fun _ => noPanic_checkedAddU64

theorem noPanic_signedValue {accumulated : Nat} : NoPanic (signedValue accumulated) := by
  unfold signedValue
  refine noPanic_reject fun hmagnitude => ?_
  by_cases hsign : accumulated % 2 = 1
  · rw [if_pos hsign, plainNegI64_eq ⟨by omega, by unfold i64Max; omega⟩]
    exact noPanic_ok
  · rw [if_neg hsign]
    exact noPanic_ok

theorem noPanic_decodeVlqFrom {values : List Int} {accumulated : Nat} {bytes : List UInt8} :
    NoPanic (decodeVlqFrom values accumulated shift bytes) := by
  induction bytes generalizing values accumulated shift with
  | nil => exact noPanic_ok
  | cons byte rest ih =>
    rw [decodeVlqFrom]
    refine noPanic_okOr.bind fun digit _ => noPanic_accumulateDigit.bind fun accumulated _ => ?_
    by_cases hlast : digit < 32
    · rw [if_pos hlast]
      exact noPanic_signedValue.bind fun value _ => ih
    · rw [if_neg hlast]
      exact noPanic_reject fun _ => ih

variable {fields : List Int}

theorem noPanic_fieldAt {index : Nat} (h : index < fields.length) :
    NoPanic (fieldAt fields index) := by
  unfold fieldAt
  rw [getElem?_eq_getElem h]
  exact noPanic_ok

theorem noPanic_advanceColumn {previous : Int} (h : fields.length ∈ [1, 4, 5]) :
    NoPanic (advanceColumn previous fields) := by
  have hlength : 0 < fields.length := by
    simp only [mem_cons, not_mem_nil, or_false] at h
    omega
  unfold advanceColumn
  refine (noPanic_fieldAt hlength).bind fun delta _ => noPanic_checkedAddI64.bind fun column _ => ?_
  exact noPanic_reject fun _ => noPanic_reject fun _ => noPanic_ok

theorem noPanic_decodeName {nameCount : Nat} {previous : Int} :
    NoPanic (decodeName nameCount previous fields) := by
  unfold decodeName
  by_cases hnamed : fields.length = 5
  · rw [if_pos hnamed]
    refine (noPanic_fieldAt (by omega)).bind fun delta _ => noPanic_checkedAddI64.bind fun name _ => ?_
    exact noPanic_reject fun _ => noPanic_tryFromU32.bind fun _ _ => noPanic_ok
  · rw [if_neg hnamed]
    exact noPanic_ok

variable {state : MappingState} {sourceCount nameCount : Nat}

theorem noPanic_decodeOriginal (h : fields.length ∈ [1, 4, 5]) :
    NoPanic (decodeOriginal sourceCount nameCount state fields) := by
  unfold decodeOriginal
  by_cases hone : fields.length = 1
  · rw [if_pos hone]
    exact noPanic_ok
  · have hlength : 3 < fields.length := by
      simp only [mem_cons, not_mem_nil, or_false] at h
      omega
    rw [if_neg hone]
    refine (noPanic_fieldAt (by omega)).bind fun _ _ => noPanic_checkedAddI64.bind fun _ _ => ?_
    refine (noPanic_fieldAt (by omega)).bind fun _ _ =>
      noPanic_checkedAddI64.bind fun originalLine _ => ?_
    refine (noPanic_fieldAt hlength).bind fun _ _ => noPanic_checkedAddI64.bind fun _ _ => ?_
    refine noPanic_reject fun _ => noPanic_reject fun hline => ?_
    refine noPanic_reject fun _ => noPanic_decodeName.bind fun _ _ => ?_
    refine noPanic_tryFromU32.bind fun _ _ => ?_
    -- the line is within its limit, so that one more is an `i64`
    have hfits : IsI64 (originalLine + 1) := by
      rw [not_not] at hline
      unfold maxOriginalLineZeroBased at hline
      unfold IsI64 i64Max
      omega
    rw [plainAddI64_eq hfits]
    exact noPanic_tryFromU32.bind fun _ _ => noPanic_tryFromU32.bind fun _ _ => noPanic_ok

theorem noPanic_decodeSegment {column : Int} {encodedSegment : List UInt8} :
    NoPanic (decodeSegment sourceCount nameCount state column encodedSegment) := by
  unfold decodeSegment
  refine noPanic_reject fun _ => noPanic_checkedAddU64.bind fun _ _ => ?_
  refine noPanic_reject fun _ => noPanic_decodeVlqFrom.bind fun fields _ => ?_
  refine noPanic_reject fun hlength => ?_
  rw [not_not] at hlength
  refine (noPanic_advanceColumn hlength).bind fun _ _ => ?_
  exact (noPanic_decodeOriginal hlength).bind fun _ _ => noPanic_tryFromU32.bind fun _ _ => noPanic_ok

theorem noPanic_decodeSegments {column : Int} {encodedSegments : List (List UInt8)} :
    NoPanic (decodeSegments sourceCount nameCount state column encodedSegments) := by
  induction encodedSegments generalizing state column with
  | nil => exact noPanic_ok
  | cons encodedSegment encodedSegments ih =>
    exact noPanic_decodeSegment.bind fun _ _ => ih.bind fun _ _ => noPanic_ok

theorem noPanic_decodeLines {sourceCount nameCount decoded : Nat}
    {encodedLines : List (List UInt8)} :
    NoPanic (decodeLines sourceCount nameCount decoded state encodedLines) := by
  induction encodedLines generalizing decoded state with
  | nil => exact noPanic_ok
  | cons encodedLine encodedLines ih =>
    refine noPanic_reject fun _ => NoPanic.bind ?_ fun _ _ => ih.bind fun _ _ => noPanic_ok
    unfold decodeLine
    by_cases hempty : encodedLine = []
    · rw [if_pos hempty]
      exact noPanic_ok
    · rw [if_neg hempty]
      exact noPanic_decodeSegments

/-- Parsing never panics. -/
theorem SourceMap.noPanic_parse {fromStr : String → Option RawSourceMap} {json : String} :
    NoPanic (SourceMap.parse fromStr json) := by
  unfold SourceMap.parse
  refine noPanic_reject fun _ => noPanic_okOr.bind fun raw _ => NoPanic.bind ?_ fun _ _ => ?_
  · unfold checkRaw
    iterate 6 refine noPanic_reject fun _ => ?_
    exact noPanic_rejectIf
  · exact noPanic_decodeLines.bind fun _ _ => noPanic_ok

end

/-! ## What parses is well formed -/

section
variable {sourceCount nameCount decoded : Nat} {state state' : MappingState}
  {previous column : Int} {fields : List Int} {segment : MappingSegment}
  {segments : List MappingSegment}

theorem decodeName_inRange {result : Option Nat × Int}
    (h : decodeName nameCount previous fields = .ok result) {index : Nat}
    (hindex : result.1 = some index) : index < nameCount := by
  unfold decodeName at h
  split_ifs at h with hnamed
  · simp only [bind_eq_ok, rejectIf_eq_ok, checkedAddI64_ok, tryFromU32_ok] at h
    obtain ⟨delta, -, name, -, u, hrange, i, ⟨-, rfl⟩, hresult⟩ := h
    rw [← Except.ok.inj hresult] at hindex
    cases hindex
    omega
  · rw [← Except.ok.inj h] at hindex
    cases hindex

theorem decodeOriginal_inRange {result : Option OriginalMapping × MappingState}
    (h : decodeOriginal sourceCount nameCount state fields = .ok result)
    {original : OriginalMapping} (horiginal : result.1 = some original) :
    original.sourceIndex < sourceCount ∧
      ∀ index, original.nameIndex = some index → index < nameCount := by
  unfold decodeOriginal at h
  split_ifs at h with hone
  · rw [← Except.ok.inj h] at horiginal
    cases horiginal
  · simp only [bind_eq_ok, rejectIf_eq_ok, tryFromU32_ok] at h
    obtain ⟨_, _, source, _, _, _, _, _, _, _, _, _, _, hsource, _, _, _, _, name, hname, sourceIndex,
      ⟨_, rfl⟩, _, _, _, _, _, _, hresult⟩ := h
    rw [← Except.ok.inj hresult] at horiginal
    cases horiginal
    refine ⟨?_, fun index hindex => decodeName_inRange hname hindex⟩
    show source.toNat < sourceCount
    omega

theorem advanceColumn_ok (h : advanceColumn previous fields = .ok column) :
    previous ≤ column ∧ 0 ≤ column ∧ column ≤ maxColumn := by
  unfold advanceColumn at h
  simp only [bind_eq_ok, rejectIf_eq_ok] at h
  obtain ⟨-, -, column', -, -, hrange, -, hmonotonic, hresult⟩ := h
  cases hresult
  omega

/-- A segment stands at or after the one before it, and refers to what is there. -/
theorem decodeSegment_ok {encodedSegment : List UInt8}
    (h : decodeSegment sourceCount nameCount state previous encodedSegment =
      .ok (segment, column, state')) :
    previous ≤ column ∧ 0 ≤ column ∧ segment.generatedColumn = column.toNat ∧
      segment.InRange sourceCount nameCount := by
  unfold decodeSegment at h
  simp only [bind_eq_ok, rejectIf_eq_ok, tryFromU32_ok] at h
  obtain ⟨_, _, _, _, _, _, fields, _, _, _, column', hcolumn, original, horiginal, generated,
    ⟨_, rfl⟩, hresult⟩ := h
  obtain ⟨rfl, hrest⟩ := Prod.mk.inj (Except.ok.inj hresult)
  cases hrest
  obtain ⟨hle, hnonneg, -⟩ := advanceColumn_ok hcolumn
  exact ⟨hle, hnonneg, rfl, fun _ hsome => decodeOriginal_inRange horiginal hsome⟩

/-- The segments of a line stand in order from the column before them. -/
theorem decodeSegments_ok {encodedSegments : List (List UInt8)}
    (h : decodeSegments sourceCount nameCount state previous encodedSegments =
      .ok (segments, state')) :
    (∀ segment ∈ segments, previous.toNat ≤ segment.generatedColumn ∧
        segment.InRange sourceCount nameCount) ∧
      segments.Pairwise fun earlier later => earlier.generatedColumn ≤ later.generatedColumn := by
  induction encodedSegments generalizing state previous segments state' with
  | nil =>
    obtain ⟨rfl, -⟩ := Prod.mk.inj (Except.ok.inj h)
    exact ⟨nofun, List.Pairwise.nil⟩
  | cons encodedSegment encodedSegments ih =>
    rw [decodeSegments, bind_eq_ok] at h
    obtain ⟨⟨segment, column, next⟩, hsegment, h⟩ := h
    rw [bind_eq_ok] at h
    obtain ⟨⟨later, last⟩, hlater, hresult⟩ := h
    obtain ⟨rfl, -⟩ := Prod.mk.inj (Except.ok.inj hresult)
    obtain ⟨hle, hnonneg, hcolumn, hrange⟩ := decodeSegment_ok hsegment
    obtain ⟨hall, hsorted⟩ := ih hlater
    simp only at hall
    refine ⟨?_, pairwise_cons.mpr ⟨?_, hsorted⟩⟩
    · intro s hs
      rcases mem_cons.mp hs with rfl | hs
      · exact ⟨by omega, hrange⟩
      · obtain ⟨hfrom, hrange'⟩ := hall s hs
        exact ⟨by omega, hrange'⟩
    · intro s hs
      have hfrom := (hall s hs).1
      simp only [hcolumn]
      exact hfrom

theorem decodeLine_ok {encodedLine : List UInt8}
    (h : decodeLine sourceCount nameCount state encodedLine = .ok (segments, state')) :
    (∀ segment ∈ segments, segment.InRange sourceCount nameCount) ∧
      segments.Pairwise fun earlier later => earlier.generatedColumn ≤ later.generatedColumn := by
  unfold decodeLine at h
  split_ifs at h with hempty
  · obtain ⟨rfl, -⟩ := Prod.mk.inj (Except.ok.inj h)
    exact ⟨nofun, List.Pairwise.nil⟩
  · obtain ⟨hall, hsorted⟩ := decodeSegments_ok h
    exact ⟨fun s hs => (hall s hs).2, hsorted⟩

theorem decodeLines_ok {encodedLines : List (List UInt8)} {lines : List (List MappingSegment)}
    (h : decodeLines sourceCount nameCount decoded state encodedLines = .ok lines) :
    ∀ line ∈ lines, (∀ segment ∈ line, segment.InRange sourceCount nameCount) ∧
      line.Pairwise fun earlier later => earlier.generatedColumn ≤ later.generatedColumn := by
  induction encodedLines generalizing decoded state lines with
  | nil =>
    cases h
    exact nofun
  | cons encodedLine encodedLines ih =>
    rw [decodeLines, rejectIf_bind_eq_ok, bind_eq_ok] at h
    obtain ⟨-, ⟨first, next⟩, hfirst, h⟩ := h
    rw [bind_eq_ok] at h
    obtain ⟨later, hlater, hresult⟩ := h
    cases hresult
    intro line hline
    rcases mem_cons.mp hline with rfl | hline
    · exact decodeLine_ok hfirst
    · exact ih hlater line hline

theorem SourceMap.wellFormed_of_parse {fromStr : String → Option RawSourceMap} {json : String}
    {map : SourceMap} (h : SourceMap.parse fromStr json = .ok map) : map.WellFormed := by
  unfold SourceMap.parse at h
  rw [rejectIf_bind_eq_ok, okOr_bind_eq_ok] at h
  obtain ⟨-, raw, -, h⟩ := h
  rw [bind_eq_ok] at h
  obtain ⟨-, -, h⟩ := h
  rw [bind_eq_ok] at h
  obtain ⟨lines, hlines, hresult⟩ := h
  cases hresult
  have hall := decodeLines_ok hlines
  refine ⟨fun line hline => (hall line hline).2, fun line hline segment hsegment => ?_⟩
  show segment.InRange (normalizedSources raw).length raw.names.length
  rw [normalizedSources, length_map]
  exact (hall line hline).1 segment hsegment

end
end Localview
