import Mathlib.Tactic.Ring
import Localview.SourceMapDecoding
import Localview.VlqCodec

/-! # Source maps, encoded and decoded

What is encoded as the format prescribes, with relative fields in base 64 VLQ, is decoded
into what it encodes: a value (`decodeVlqFrom_encode`), a segment (`decodeSegment_encode`),
a line, and so a whole map (`SourceMap.parse_encodeMappings`).  The decoder's state is
everywhere the position that the fields encoded next are relative to (`MappingCursor`).
-/
namespace Localview
open EarlyReturn VlqCodec List SourceMap

/-! ## Values -/

section
variable {values : List Int} {rest : List UInt8}

theorem base64Value_base64Byte {d : Nat} (h : d < 64) : base64Value (base64Byte d) = some d := by
  have hall : ∀ d : Fin 64, base64Value (base64Byte d) = some d.val := by decide
  exact hall ⟨d, h⟩

theorem ok_bind {α β : Type} {a : α} {f : α → Parse β} : ((.ok a : Parse α) >>= f) = f a := rfl

/-- A digit below 32 ends a value. -/
theorem decodeVlqFrom_last {byte : UInt8} {digit accumulated shift sum : Nat}
    (hvalue : base64Value byte = some digit)
    (hdigit : accumulateDigit accumulated shift digit = .ok sum) (hlast : digit < 32) :
    decodeVlqFrom values accumulated shift (byte :: rest) =
      (signedValue sum >>= fun value => decodeVlqFrom (values ++ [value]) 0 0 rest) := by
  rw [decodeVlqFrom, hvalue, okOr]
  simp only [ok_bind, hdigit, hlast, if_true]

/-- Another goes on with it, five bits further. -/
theorem decodeVlqFrom_more {byte : UInt8} {digit accumulated shift sum : Nat}
    (hvalue : base64Value byte = some digit)
    (hdigit : accumulateDigit accumulated shift digit = .ok sum) (hlast : ¬digit < 32)
    (hmore : ¬(64 ≤ shift + 5 ∨ rest = [])) :
    decodeVlqFrom values accumulated shift (byte :: rest) =
      decodeVlqFrom values sum (shift + 5) rest := by
  rw [decodeVlqFrom, hvalue, okOr]
  simp only [ok_bind, hdigit, hlast, if_false, rejectIf, hmore]

/-- The digits of a number are accumulated into it. -/
theorem decodeVlqFrom_digits {n accumulated shift : Nat} (hshift : shift < 64)
    (hfits : accumulated + n * 2 ^ shift ≤ u64Max) :
    decodeVlqFrom values accumulated shift ((digits n).map base64Byte ++ rest) =
      (signedValue (accumulated + n * 2 ^ shift) >>= fun value =>
        decodeVlqFrom (values ++ [value]) 0 0 rest) := by
  induction n using Nat.strongRecOn generalizing accumulated shift with
  | ind n ih =>
    by_cases hlast : n < 32
    · have hdigit : accumulateDigit accumulated shift n = .ok (accumulated + n * 2 ^ shift) := by
        rw [accumulateDigit_ok, Nat.mod_eq_of_lt hlast]
        exact ⟨hshift, hfits, rfl⟩
      rw [digits_of_lt hlast, map_singleton, singleton_append]
      exact decodeVlqFrom_last (base64Value_base64Byte (by omega)) hdigit hlast
    · have hsplit : n % 32 * 2 ^ shift + n / 32 * 2 ^ (shift + 5) = n * 2 ^ shift := by
        calc n % 32 * 2 ^ shift + n / 32 * 2 ^ (shift + 5)
            = (n % 32 + 32 * (n / 32)) * 2 ^ shift := by ring
          _ = n * 2 ^ shift := by rw [Nat.mod_add_div]
      -- a number that goes on is at least 32, so that the shift has room for a digit more
      have hroom : shift + 5 < 64 := by
        have hlarge : 2 ^ (shift + 5) ≤ n * 2 ^ shift := by
          calc 2 ^ (shift + 5) = 32 * 2 ^ shift := by ring
            _ ≤ n * 2 ^ shift := Nat.mul_le_mul_right _ (by omega)
        have hlt : 2 ^ (shift + 5) < 2 ^ 64 := by
          unfold u64Max at hfits
          omega
        exact (Nat.pow_lt_pow_iff_right (by omega)).mp hlt
      have hdigit : accumulateDigit accumulated shift (n % 32 + 32) =
          .ok (accumulated + n % 32 * 2 ^ shift) := by
        rw [accumulateDigit_ok, show (n % 32 + 32) % 32 = n % 32 by omega]
        exact ⟨hshift, by omega, rfl⟩
      have hmore : ¬(64 ≤ shift + 5 ∨ (digits (n / 32)).map base64Byte ++ rest = []) := by
        rintro (hle | hnil)
        · omega
        · exact digits_ne_nil _ (map_eq_nil_iff.mp (append_eq_nil_iff.mp hnil).1)
      have hrest := @ih (n / 32) (by omega) (accumulated + n % 32 * 2 ^ shift) (shift + 5) hroom
        (by omega)
      rw [digits_of_le (by omega), map_cons, cons_append,
        decodeVlqFrom_more (base64Value_base64Byte (by omega)) hdigit (by omega) hmore, hrest,
        Nat.add_assoc, hsplit]

theorem signedValue_foldSign {v : Int} (h : -i64Max ≤ v ∧ v ≤ i64Max) :
    signedValue (foldSign v) = .ok v := by
  unfold signedValue
  rw [rejectIf_bind_eq_ok, foldSign_half]
  refine ⟨by omega, ?_⟩
  by_cases hsign : v < 0
  · rw [if_pos ((foldSign_odd v).mpr hsign), plainNegI64_eq ⟨by omega, by unfold i64Max; omega⟩]
    exact congrArg Except.ok (by omega)
  · rw [if_neg (fun hodd => hsign ((foldSign_odd v).mp hodd))]
    exact congrArg Except.ok (by omega)

/-- A value is decoded, and what follows it after that. -/
theorem decodeVlqFrom_encode {v : Int} (h : -i64Max ≤ v ∧ v ≤ i64Max) :
    decodeVlqFrom values 0 0 (encode v ++ rest) = decodeVlqFrom (values ++ [v]) 0 0 rest := by
  have hfits : foldSign v ≤ u64Max := by
    unfold foldSign i64Max u64Max at *
    split <;> omega
  rw [encode, decodeVlqFrom_digits (by omega) (by omega)]
  simp only [pow_zero, Nat.mul_one, Nat.zero_add]
  rw [signedValue_foldSign h]
  rfl

theorem decodeVlqSegment_encodeAll {vs : List Int} (h : ∀ v ∈ vs, -i64Max ≤ v ∧ v ≤ i64Max) :
    decodeVlqSegment (encodeAll vs) = .ok vs := by
  have hfrom : ∀ values, decodeVlqFrom values 0 0 (encodeAll vs) = .ok (values ++ vs) := by
    induction vs with
    | nil =>
      intro values
      rw [append_nil]
      rfl
    | cons v vs ih =>
      intro values
      rw [encodeAll, flatMap_cons, decodeVlqFrom_encode (h v mem_cons_self), ← encodeAll,
        ih fun v' hv' => h v' (mem_cons_of_mem v hv'), append_assoc, singleton_append]
  exact hfrom []

end

/-! ## Mappings, encoded as the format prescribes -/

/-- An original position, counted from zero, with the name that stands there. -/
structure AbsoluteOriginal where
  (source line column : Nat)
  name : Option Nat

/-- A segment without deltas. -/
structure AbsoluteSegment where
  generatedColumn : Nat
  original : Option AbsoluteOriginal

/-- What the fields of a segment are relative to, besides its column. -/
structure MappingCursor where
  (source line column name : Nat)

/-- The original position of a segment is what the next ones are relative to. -/
def MappingCursor.after (cursor : MappingCursor) (segment : AbsoluteSegment) : MappingCursor :=
  match segment.original with
  | none => cursor
  | some original =>
      ⟨original.source, original.line, original.column, original.name.getD cursor.name⟩

/-- The field of a name, if there is one. -/
def relativeName (cursor : MappingCursor) : Option Nat → List Int
  | none => []
  | some name => [(name : Int) - cursor.name]

def relativeFields (cursor : MappingCursor) (previous : Nat) (segment : AbsoluteSegment) :
    List Int :=
  ((segment.generatedColumn : Int) - previous) ::
    match segment.original with
    | none => []
    | some original =>
        [(original.source : Int) - cursor.source, (original.line : Int) - cursor.line,
          (original.column : Int) - cursor.column] ++ relativeName cursor original.name

/-- The segments of a line, each relative to those before it. -/
def encodeSegments (cursor : MappingCursor) (previous : Nat) :
    List AbsoluteSegment → List (List UInt8)
  | [] => []
  | segment :: segments =>
      encodeAll (relativeFields cursor previous segment) ::
        encodeSegments (cursor.after segment) segment.generatedColumn segments

/-- A line: its segments with commas between them. -/
def encodeLine (cursor : MappingCursor) (segments : List AbsoluteSegment) : List UInt8 :=
  [44].intercalate (encodeSegments cursor 0 segments)

def encodeLines (cursor : MappingCursor) : List (List AbsoluteSegment) → List (List UInt8)
  | [] => []
  | line :: lines =>
      encodeLine cursor line :: encodeLines (line.foldl MappingCursor.after cursor) lines

/-- The lines with semicolons between them. -/
def encodeMappings (lines : List (List AbsoluteSegment)) : List UInt8 :=
  [59].intercalate (encodeLines ⟨0, 0, 0, 0⟩ lines)

/-- The segment that is kept for an absolute one; its line is counted from one. -/
def AbsoluteSegment.toSegment (segment : AbsoluteSegment) : MappingSegment :=
  { generatedColumn := segment.generatedColumn
    original := segment.original.map fun original =>
      { sourceIndex := original.source, line := original.line + 1, column := original.column
        nameIndex := original.name } }

/-- An original position that is kept: with its source and its name, and not too far. -/
structure AbsoluteOriginal.WithinLimits (sourceCount nameCount : Nat) (original : AbsoluteOriginal) :
    Prop where
  source : original.source < sourceCount
  line : (original.line : Int) ≤ maxOriginalLineZeroBased
  column : (original.column : Int) ≤ maxColumn
  name : ∀ name, original.name = some name → name < nameCount

/-- A segment the decoder takes. -/
structure AbsoluteSegment.WithinLimits (sourceCount nameCount : Nat) (segment : AbsoluteSegment) :
    Prop where
  column : (segment.generatedColumn : Int) ≤ maxColumn
  original : ∀ original, segment.original = some original →
    original.WithinLimits sourceCount nameCount

/-! ## Mappings, decoded -/

section
variable {sourceCount nameCount count : Nat} {cursor : MappingCursor} {previous : Nat}
  {segment : AbsoluteSegment} {segments : List AbsoluteSegment} {original : AbsoluteOriginal}

/-- The state of the decoder after so many segments. -/
def MappingCursor.state (cursor : MappingCursor) (decodedSegments : Nat) : MappingState :=
  ⟨cursor.source, cursor.line, cursor.column, cursor.name, decodedSegments⟩

/-- A cursor that only segments within the limits have moved. -/
structure MappingCursor.Bounded (cursor : MappingCursor) : Prop where
  source : (cursor.source : Int) ≤ maxColumn
  line : (cursor.line : Int) ≤ maxColumn
  column : (cursor.column : Int) ≤ maxColumn
  name : (cursor.name : Int) ≤ maxColumn

theorem MappingCursor.Bounded.after (h : cursor.Bounded) (hsources : sourceCount ≤ maxSources)
    (hnames : nameCount ≤ maxNames) (hsegment : segment.WithinLimits sourceCount nameCount) :
    (cursor.after segment).Bounded := by
  unfold MappingCursor.after
  cases horiginal : segment.original with
  | none => exact h
  | some original =>
    obtain ⟨hsource, hline, hcolumn, hname⟩ := hsegment.original original horiginal
    unfold maxSources at hsources
    unfold maxNames at hnames
    unfold maxOriginalLineZeroBased at hline
    refine ⟨?_, ?_, hcolumn, ?_⟩
    · show (original.source : Int) ≤ maxColumn
      unfold maxColumn
      omega
    · show (original.line : Int) ≤ maxColumn
      unfold maxColumn
      omega
    · show ((original.name.getD cursor.name : Nat) : Int) ≤ maxColumn
      cases hsome : original.name with
      | none => exact h.name
      | some name =>
        have hlt := hname name hsome
        show (name : Int) ≤ maxColumn
        unfold maxColumn
        omega

theorem rejectIf_neg {bad : Prop} [Decidable bad] {e : ParseFault} (h : ¬bad) :
    rejectIf bad e = .ok () := if_neg h

/-- A number is reached from another by their difference. -/
theorem checkedAddI64_sub {m n : Nat} (h : (n : Int) ≤ maxColumn) :
    checkedAddI64 m ((n : Int) - m) = .ok (n : Int) := by
  rw [checkedAddI64_ok]
  unfold maxColumn at h
  unfold IsI64 i64Max
  omega

theorem tryFromU32_natCast {n : Nat} {e : SourceMapError} (h : (n : Int) ≤ maxColumn) :
    tryFromU32 n e = .ok n := by
  rw [tryFromU32_ok]
  unfold maxColumn at h
  omega

/-- The fields of a segment within the limits are `i64`s that can be encoded. -/
theorem relativeFields_bounded (hcursor : cursor.Bounded) (hprevious : (previous : Int) ≤ maxColumn)
    (hnext : (cursor.after segment).Bounded)
    (hcolumn : (segment.generatedColumn : Int) ≤ maxColumn) :
    ∀ v ∈ relativeFields cursor previous segment, -i64Max ≤ v ∧ v ≤ i64Max := by
  have hdifference : ∀ {m n : Nat}, (m : Int) ≤ maxColumn → (n : Int) ≤ maxColumn →
      -i64Max ≤ (n : Int) - m ∧ (n : Int) - m ≤ i64Max := by
    intro m n hm hn
    unfold maxColumn at hm hn
    unfold i64Max
    omega
  intro v hv
  unfold relativeFields at hv
  unfold MappingCursor.after at hnext
  rcases mem_cons.mp hv with rfl | hv
  · exact hdifference hprevious hcolumn
  cases horiginal : segment.original with
  | none =>
    rw [horiginal] at hv
    cases hv
  | some original =>
    simp only [horiginal] at hv hnext
    rcases mem_append.mp hv with hv | hv
    · simp only [mem_cons, not_mem_nil, or_false] at hv
      rcases hv with rfl | rfl | rfl
      · exact hdifference hcursor.source hnext.source
      · exact hdifference hcursor.line hnext.line
      · exact hdifference hcursor.column hnext.column
    · cases hname : original.name with
      | none =>
        rw [hname] at hv
        cases hv
      | some name =>
        rw [hname] at hv
        have hnext' := hnext.name
        rw [hname] at hnext'
        obtain rfl := mem_singleton.mp hv
        exact hdifference hcursor.name hnext'

theorem advanceColumn_encode {rest : List Int} (hle : previous ≤ segment.generatedColumn)
    (hcolumn : (segment.generatedColumn : Int) ≤ maxColumn) :
    advanceColumn previous (((segment.generatedColumn : Int) - previous) :: rest) =
      .ok (segment.generatedColumn : Int) := by
  unfold advanceColumn fieldAt
  rw [getElem?_cons_zero, okOr, ok_bind, checkedAddI64_sub hcolumn, ok_bind,
    rejectIf_neg (by omega), ok_bind, rejectIf_neg (by omega)]
  rfl

theorem decodeName_encode {first second third fourth : Int} {name : Option Nat}
    (hname : ∀ n, name = some n → n < nameCount) (hnames : nameCount ≤ maxNames) :
    decodeName nameCount cursor.name ([first, second, third, fourth] ++ relativeName cursor name) =
      .ok (name, ((name.getD cursor.name : Nat) : Int)) := by
  unfold decodeName fieldAt
  cases name with
  | none => rfl
  | some n =>
    have hlt := hname n rfl
    have hbound : (n : Int) ≤ maxColumn := by
      unfold maxNames at hnames
      unfold maxColumn
      omega
    simp only [relativeName, cons_append, nil_append,
      length_cons, length_nil, if_true, getElem?_cons_succ, getElem?_cons_zero,
      okOr, ok_bind, checkedAddI64_sub hbound]
    rw [rejectIf_neg (by omega), ok_bind, tryFromU32_natCast hbound]
    rfl

/-- The steps of `decodeOriginal`, each with its outcome. -/
theorem decodeOriginal_of_steps {state : MappingState} {fields : List Int}
    {sourceDelta lineDelta columnDelta source line column oneBased : Int}
    {name : Option Nat × Int} {sourceIndex line' column' : Nat} (hlength : fields.length ≠ 1)
    (hsourceDelta : fieldAt fields 1 = .ok sourceDelta)
    (hlineDelta : fieldAt fields 2 = .ok lineDelta)
    (hcolumnDelta : fieldAt fields 3 = .ok columnDelta)
    (hsource : checkedAddI64 state.previousSource sourceDelta = .ok source)
    (hline : checkedAddI64 state.previousOriginalLine lineDelta = .ok line)
    (hcolumn : checkedAddI64 state.previousOriginalColumn columnDelta = .ok column)
    (hsourceRange : ¬(source < 0 ∨ sourceCount ≤ source.toNat))
    (hlineRange : ¬¬(0 ≤ line ∧ line ≤ maxOriginalLineZeroBased))
    (hcolumnRange : ¬¬(0 ≤ column ∧ column ≤ maxColumn))
    (hname : decodeName nameCount state.previousName fields = .ok name)
    (hsourceIndex : tryFromU32 source .sourceIndexOutOfRange = .ok sourceIndex)
    (honeBased : plainAddI64 line 1 = .ok oneBased)
    (hline' : tryFromU32 oneBased .originalLineOutOfRange = .ok line')
    (hcolumn' : tryFromU32 column .originalColumnOutOfRange = .ok column') :
    decodeOriginal sourceCount nameCount state fields =
      .ok (some ⟨sourceIndex, line', column', name.1⟩,
        ⟨source, line, column, name.2, state.decodedSegments⟩) := by
  unfold decodeOriginal
  rw [if_neg hlength]
  simp only [hsourceDelta, hlineDelta, hcolumnDelta, hsource, hline, hcolumn, ok_bind,
    rejectIf_neg hsourceRange, rejectIf_neg hlineRange, rejectIf_neg hcolumnRange, hname,
    hsourceIndex, honeBased, hline', hcolumn']
  rfl

/-- The original position of a segment is decoded, and becomes what the next is relative to. -/
theorem decodeOriginal_encode {column : Int} (hsources : sourceCount ≤ maxSources)
    (hnames : nameCount ≤ maxNames) (h : original.WithinLimits sourceCount nameCount)
    {fields : List Int}
    (hfields : fields = [column, (original.source : Int) - cursor.source,
      (original.line : Int) - cursor.line, (original.column : Int) - cursor.column] ++
        relativeName cursor original.name) :
    decodeOriginal sourceCount nameCount (cursor.state count) fields =
      .ok (some ⟨original.source, original.line + 1, original.column, original.name⟩,
        ⟨original.source, original.line, original.column,
          ((original.name.getD cursor.name : Nat) : Int), count⟩) := by
  obtain ⟨hsource, hline, hcolumn, hname⟩ := h
  have hsourceBound : (original.source : Int) ≤ maxColumn := by
    unfold maxSources at hsources
    unfold maxColumn
    omega
  have hlineBound : (original.line : Int) ≤ maxColumn := by
    unfold maxOriginalLineZeroBased at hline
    unfold maxColumn
    omega
  have honeBased : plainAddI64 (original.line : Int) 1 = .ok ((original.line + 1 : Nat) : Int) := by
    rw [plainAddI64_ok]
    unfold maxOriginalLineZeroBased at hline
    unfold IsI64 i64Max
    omega
  have hline' : tryFromU32 ((original.line + 1 : Nat) : Int) .originalLineOutOfRange =
      .ok (original.line + 1) := by
    rw [tryFromU32_ok]
    unfold maxOriginalLineZeroBased at hline
    omega
  have hdecoded : decodeName nameCount cursor.name fields =
      .ok (original.name, ((original.name.getD cursor.name : Nat) : Int)) := by
    rw [hfields]
    exact decodeName_encode hname hnames
  have hlength : fields.length ≠ 1 := by
    rw [hfields, length_append]
    simp only [length_cons]
    omega
  have hsourceDelta : fieldAt fields 1 = .ok ((original.source : Int) - cursor.source) := by
    rw [hfields]
    rfl
  have hlineDelta : fieldAt fields 2 = .ok ((original.line : Int) - cursor.line) := by
    rw [hfields]
    rfl
  have hcolumnDelta : fieldAt fields 3 = .ok ((original.column : Int) - cursor.column) := by
    rw [hfields]
    rfl
  have hsteps := @decodeOriginal_of_steps sourceCount nameCount (cursor.state count) fields
    _ _ _ _ _ _ _ _ _ _ _ hlength hsourceDelta hlineDelta hcolumnDelta
    (checkedAddI64_sub hsourceBound) (checkedAddI64_sub hlineBound) (checkedAddI64_sub hcolumn)
    (by omega) (by omega) (by omega) hdecoded (tryFromU32_natCast hsourceBound) honeBased hline'
    (tryFromU32_natCast hcolumn)
  simpa only [MappingCursor.state] using hsteps

theorem relativeFields_length :
    (relativeFields cursor previous segment).length ∈ [1, 4, 5] := by
  unfold relativeFields
  cases segment.original with
  | none => simp
  | some original => cases hname : original.name <;> simp [hname, relativeName]

theorem relativeFields_ne_nil : relativeFields cursor previous segment ≠ [] :=
  cons_ne_nil _ _

theorem decodeSegment_encode (hcursor : cursor.Bounded) (hcount : count < maxSegments)
    (hsources : sourceCount ≤ maxSources) (hnames : nameCount ≤ maxNames)
    (hprevious : previous ≤ segment.generatedColumn)
    (h : segment.WithinLimits sourceCount nameCount) :
    decodeSegment sourceCount nameCount (cursor.state count) previous
        (encodeAll (relativeFields cursor previous segment)) =
      .ok (segment.toSegment, segment.generatedColumn, (cursor.after segment).state (count + 1)) := by
  have hcolumn := h.column
  have hcounted : checkedAddU64 count 1 = .ok (count + 1) := by
    rw [checkedAddU64_ok]
    unfold maxSegments at hcount
    unfold u64Max
    omega
  have hpreviousBound : (previous : Int) ≤ maxColumn := by omega
  have hfields := decodeVlqSegment_encodeAll
    (relativeFields_bounded hcursor hpreviousBound (hcursor.after hsources hnames h) hcolumn)
  have hadvance : advanceColumn (previous : Int) (relativeFields cursor previous segment) =
      .ok (segment.generatedColumn : Int) := advanceColumn_encode hprevious hcolumn
  have horiginal : decodeOriginal sourceCount nameCount (cursor.state (count + 1))
      (relativeFields cursor previous segment) =
        .ok (segment.toSegment.original, (cursor.after segment).state (count + 1)) := by
    cases hsome : segment.original with
    | none =>
      unfold decodeOriginal
      simp only [relativeFields, AbsoluteSegment.toSegment, MappingCursor.after, hsome]
      rfl
    | some original =>
      rw [decodeOriginal_encode hsources hnames (h.original original hsome)
        (by simp only [relativeFields, hsome]; rfl)]
      simp only [AbsoluteSegment.toSegment, MappingCursor.after, hsome]
      rfl
  unfold decodeSegment
  rw [rejectIf_neg (encodeAll_ne_nil relativeFields_ne_nil), ok_bind]
  show (checkedAddU64 count 1 >>= _) = _
  rw [hcounted, ok_bind, rejectIf_neg (by omega), ok_bind, hfields, ok_bind,
    rejectIf_neg (not_not.mpr relativeFields_length), ok_bind, hadvance, ok_bind]
  show (decodeOriginal sourceCount nameCount (cursor.state (count + 1))
    (relativeFields cursor previous segment) >>= _) = _
  rw [horiginal, ok_bind, tryFromU32_natCast hcolumn]
  rfl

/-- Segments that stand at or after a column, in order. -/
def AscendingFrom (previous : Nat) (segments : List AbsoluteSegment) : Prop :=
  (∀ segment ∈ segments, previous ≤ segment.generatedColumn) ∧
    segments.Pairwise fun earlier later => earlier.generatedColumn ≤ later.generatedColumn

theorem MappingCursor.Bounded.foldl (h : cursor.Bounded) (hsources : sourceCount ≤ maxSources)
    (hnames : nameCount ≤ maxNames)
    (hsegments : ∀ segment ∈ segments, segment.WithinLimits sourceCount nameCount) :
    (segments.foldl MappingCursor.after cursor).Bounded := by
  induction segments generalizing cursor with
  | nil => exact h
  | cons segment segments ih =>
    exact ih (h.after hsources hnames (hsegments segment mem_cons_self))
      fun s hs => hsegments s (mem_cons_of_mem segment hs)

theorem decodeSegments_encode (hcursor : cursor.Bounded)
    (hcount : count + segments.length ≤ maxSegments) (hsources : sourceCount ≤ maxSources)
    (hnames : nameCount ≤ maxNames) (hascending : AscendingFrom previous segments)
    (h : ∀ segment ∈ segments, segment.WithinLimits sourceCount nameCount) :
    decodeSegments sourceCount nameCount (cursor.state count) previous
        (encodeSegments cursor previous segments) =
      .ok (segments.map AbsoluteSegment.toSegment,
        (segments.foldl MappingCursor.after cursor).state (count + segments.length)) := by
  induction segments generalizing cursor count previous with
  | nil => rfl
  | cons segment segments ih =>
    obtain ⟨hfrom, hsorted⟩ := hascending
    rw [pairwise_cons] at hsorted
    rw [length_cons] at hcount
    have hsegment := h segment mem_cons_self
    have hdecoded := @decodeSegment_encode sourceCount nameCount count cursor previous segment
      hcursor (by omega) hsources hnames (hfrom segment mem_cons_self) hsegment
    have hrest := @ih (count + 1) (cursor.after segment) segment.generatedColumn
      (hcursor.after hsources hnames hsegment) (by omega) hsorted
      fun s hs => h s (mem_cons_of_mem segment hs)
    rw [encodeSegments, decodeSegments, hdecoded, ok_bind]
    simp only [hrest, ok_bind]
    rw [length_cons, foldl_cons, map_cons, Nat.add_assoc, Nat.add_comm 1]
    rfl

/-! ## Lines and separators -/

theorem base64Byte_ne {d : Nat} (h : d < 64) : base64Byte d ≠ 44 ∧ base64Byte d ≠ 59 := by
  have hall : ∀ d : Fin 64, base64Byte d ≠ 44 ∧ base64Byte d ≠ 59 := by decide
  exact hall ⟨d, h⟩

/-- What stands in no part stands in none that is joined by something else. -/
theorem not_mem_intercalate {x separator : UInt8} (hne : x ≠ separator) {parts : List (List UInt8)}
    (h : ∀ part ∈ parts, x ∉ part) : x ∉ [separator].intercalate parts := by
  induction parts with
  | nil => exact not_mem_nil
  | cons part parts ih =>
    have hrest := ih fun p hp => h p (mem_cons_of_mem part hp)
    cases parts with
    | nil =>
      rw [intercalate_singleton]
      exact h part mem_cons_self
    | cons next parts =>
      rw [intercalate_cons_cons, mem_append, mem_append, mem_singleton]
      rintro ((hmem | hmem) | hmem)
      · exact h part mem_cons_self hmem
      · exact hne hmem
      · exact hrest hmem

theorem intercalate_ne_nil {separator : UInt8} {parts : List (List UInt8)} (hparts : parts ≠ [])
    (h : ∀ part ∈ parts, part ≠ []) : [separator].intercalate parts ≠ [] := by
  obtain ⟨part, rest, rfl⟩ := exists_cons_of_ne_nil hparts
  have hpart := h part mem_cons_self
  cases rest with
  | nil =>
    rw [intercalate_singleton]
    exact hpart
  | cons next rest =>
    rw [intercalate_cons_cons, append_assoc]
    exact append_ne_nil_of_left_ne_nil hpart _

/-- A segment's bytes are some, and none of them separates. -/
theorem encodeSegments_bytes {part : List UInt8} (h : part ∈ encodeSegments cursor previous segments) :
    part ≠ [] ∧ 44 ∉ part ∧ 59 ∉ part := by
  induction segments generalizing cursor previous with
  | nil => cases h
  | cons segment segments ih =>
    rcases mem_cons.mp h with rfl | h
    · exact ⟨encodeAll_ne_nil relativeFields_ne_nil,
        not_mem_encodeAll (fun _ hd => (base64Byte_ne hd).1) _,
        not_mem_encodeAll (fun _ hd => (base64Byte_ne hd).2) _⟩
    · exact ih h

theorem encodeSegments_eq_nil : encodeSegments cursor previous segments = [] ↔ segments = [] := by
  cases segments with
  | nil => exact iff_of_true rfl rfl
  | cons segment segments => exact iff_of_false (cons_ne_nil _ _) (cons_ne_nil _ _)

theorem decodeLine_encode (hcursor : cursor.Bounded)
    (hcount : count + segments.length ≤ maxSegments) (hsources : sourceCount ≤ maxSources)
    (hnames : nameCount ≤ maxNames) (hascending : AscendingFrom 0 segments)
    (h : ∀ segment ∈ segments, segment.WithinLimits sourceCount nameCount) :
    decodeLine sourceCount nameCount (cursor.state count) (encodeLine cursor segments) =
      .ok (segments.map AbsoluteSegment.toSegment,
        (segments.foldl MappingCursor.after cursor).state (count + segments.length)) := by
  unfold decodeLine encodeLine
  by_cases hempty : segments = []
  · subst hempty
    rw [encodeSegments, intercalate_nil, if_pos rfl]
    rfl
  · have hparts : encodeSegments cursor 0 segments ≠ [] := mt encodeSegments_eq_nil.mp hempty
    rw [if_neg (intercalate_ne_nil hparts fun _ hpart => (encodeSegments_bytes hpart).1),
      splitOn_intercalate 44 (fun _ hpart => (encodeSegments_bytes hpart).2.1) hparts]
    exact decodeSegments_encode hcursor hcount hsources hnames hascending h

/-- No byte of a line separates lines. -/
theorem encodeLines_bytes {lines : List (List AbsoluteSegment)} {part : List UInt8}
    (h : part ∈ encodeLines cursor lines) : 59 ∉ part := by
  induction lines generalizing cursor with
  | nil => cases h
  | cons line lines ih =>
    rcases mem_cons.mp h with rfl | h
    · exact not_mem_intercalate (by decide) fun _ hpart => (encodeSegments_bytes hpart).2.2
    · exact ih h

/-- The lines are decoded one after the other. -/
theorem decodeLines_encode {lines : List (List AbsoluteSegment)} {decoded : Nat}
    (hcursor : cursor.Bounded) (hlines : decoded + lines.length ≤ maxGeneratedLines)
    (hcount : count + lines.flatten.length ≤ maxSegments) (hsources : sourceCount ≤ maxSources)
    (hnames : nameCount ≤ maxNames) (hascending : ∀ line ∈ lines, AscendingFrom 0 line)
    (h : ∀ line ∈ lines, ∀ segment ∈ line, segment.WithinLimits sourceCount nameCount) :
    decodeLines sourceCount nameCount decoded (cursor.state count) (encodeLines cursor lines) =
      .ok (lines.map fun line => line.map AbsoluteSegment.toSegment) := by
  induction lines generalizing cursor count decoded with
  | nil => rfl
  | cons line lines ih =>
    rw [flatten_cons, length_append] at hcount
    rw [length_cons] at hlines
    have hline := h line mem_cons_self
    have hdecoded := @decodeLine_encode sourceCount nameCount count cursor line hcursor (by omega)
      hsources hnames (hascending line mem_cons_self) hline
    have hrest := @ih (count + line.length) (line.foldl MappingCursor.after cursor) (decoded + 1)
      (hcursor.foldl hsources hnames hline) (by omega) (by omega)
      (fun l hl => hascending l (mem_cons_of_mem line hl))
      (fun l hl => h l (mem_cons_of_mem line hl))
    rw [encodeLines, decodeLines, rejectIf_neg (by omega), ok_bind, hdecoded, ok_bind]
    simp only [hrest, ok_bind]
    rfl

end

/-! ## Whole maps -/

/-- What the JSON holds besides its mappings is within the limits. -/
structure RawSourceMap.WithinLimits (raw : RawSourceMap) : Prop where
  version : raw.version = 3
  sections : raw.sections = none
  sources : raw.sources.length ≤ maxSources
  names : raw.names.length ≤ maxNames
  mappings : raw.mappings.utf8ByteSize ≤ maxMappingsBytes
  strings : ∀ s ∈ raw.sourceRoot.toList ++ raw.sources ++ raw.names ++ normalizedSources raw,
    s.utf8ByteSize ≤ maxStringBytes

/-- Mappings within the limits: not too many, in column order, and referring to what is
there. -/
structure MappingsWithinLimits (sourceCount nameCount : Nat)
    (lines : List (List AbsoluteSegment)) : Prop where
  lineCount : lines.length ≤ maxGeneratedLines
  segmentCount : lines.flatten.length ≤ maxSegments
  ascending : ∀ line ∈ lines,
    line.Pairwise fun earlier later => earlier.generatedColumn ≤ later.generatedColumn
  within : ∀ line ∈ lines, ∀ segment ∈ line, segment.WithinLimits sourceCount nameCount

/-- The lines that a text is read as; the empty text is one empty line. -/
def segmentLines (lines : List (List AbsoluteSegment)) : List (List MappingSegment) :=
  (if lines = [] then [[]] else lines.map fun line => line.map AbsoluteSegment.toSegment)

section
variable {raw : RawSourceMap} {lines : List (List AbsoluteSegment)}

theorem checkRaw_ok (h : raw.WithinLimits) : checkRaw raw = .ok () := by
  have hshort : ∀ {texts : List String},
      (∀ s ∈ texts, s.utf8ByteSize ≤ maxStringBytes) → ¬texts.any tooLong = true := by
    intro texts hall hany
    obtain ⟨s, hs, hlong⟩ := any_eq_true.mp hany
    exact Nat.not_lt.mpr (hall s hs) (of_decide_eq_true hlong)
  have hstrings := h.strings
  simp only [mem_append] at hstrings
  have hroot : ¬raw.sourceRoot.any tooLong = true := by
    intro hany
    obtain ⟨root, hroot, hlong⟩ := (Option.any_eq_true _ _).mp hany
    have hshortRoot := hstrings root (.inl (.inl (.inl (Option.mem_toList.mpr hroot))))
    exact Nat.not_lt.mpr hshortRoot (of_decide_eq_true hlong)
  have hsources : ¬raw.sources.any tooLong = true :=
    hshort fun s hs => hstrings s (.inl (.inl (.inr hs)))
  have hnames : ¬raw.names.any tooLong = true := hshort fun s hs => hstrings s (.inl (.inr hs))
  have hnormalized : ¬(normalizedSources raw).any tooLong = true :=
    hshort fun s hs => hstrings s (.inr hs)
  have hsections : ¬raw.sections.isSome := by
    rw [h.sections]
    exact Bool.false_ne_true
  unfold checkRaw
  rw [rejectIf_neg (not_not.mpr h.version), ok_bind, rejectIf_neg hsections, ok_bind,
    rejectIf_neg (Nat.not_lt.mpr h.sources), ok_bind, rejectIf_neg (Nat.not_lt.mpr h.names), ok_bind,
    rejectIf_neg (Nat.not_lt.mpr h.mappings), ok_bind,
    rejectIf_neg (by rintro (h | h | h) <;> contradiction), ok_bind, rejectIf_neg hnormalized]

theorem decodeLines_encodeMappings {sourceCount nameCount : Nat} (hsources : sourceCount ≤ maxSources)
    (hnames : nameCount ≤ maxNames) (h : MappingsWithinLimits sourceCount nameCount lines) :
    decodeLines sourceCount nameCount 0 ⟨0, 0, 0, 0, 0⟩ ((encodeMappings lines).splitOn 59) =
      .ok (segmentLines lines) := by
  have hzero : (⟨0, 0, 0, 0⟩ : MappingCursor).Bounded := by
    constructor <;> decide
  unfold segmentLines encodeMappings
  by_cases hempty : lines = []
  · subst hempty
    rfl
  · have hencoded : encodeLines ⟨0, 0, 0, 0⟩ lines ≠ [] := by
      obtain ⟨line, rest, rfl⟩ := exists_cons_of_ne_nil hempty
      exact cons_ne_nil _ _
    rw [if_neg hempty,
      splitOn_intercalate 59 (fun _ hpart => encodeLines_bytes hpart) hencoded]
    have hlineCount := h.lineCount
    have hsegmentCount := h.segmentCount
    exact decodeLines_encode hzero (by omega) (by omega) hsources hnames
      (fun line hline => ⟨fun _ _ => Nat.zero_le _, h.ascending line hline⟩) h.within

theorem SourceMap.parse_encodeMappings {fromStr : String → Option RawSourceMap} {json : String}
    (hjson : json.utf8ByteSize ≤ maxJsonBytes) (hraw : fromStr json = some raw)
    (hchecked : raw.WithinLimits)
    (hlines : MappingsWithinLimits raw.sources.length raw.names.length lines)
    (hencoded : asBytes raw.mappings = encodeMappings lines) :
    parse fromStr json = .ok
      { sources := normalizedSources raw, names := raw.names, lines := segmentLines lines } := by
  unfold parse
  rw [rejectIf_neg (Nat.not_lt.mpr hjson), ok_bind, hraw, okOr, ok_bind, checkRaw_ok hchecked, ok_bind,
    hencoded, decodeLines_encodeMappings hchecked.sources hchecked.names hlines, ok_bind]
  rfl

end

/-- Values that are encoded are decoded; a map that is encoded within the limits is parsed
into the segments it encodes; no input makes the parser panic, no sum or shift in it loses
a bit, and a map that parses has its lines in column order and its indices in range. -/
theorem source_map_decoding (fromStr : String → Option RawSourceMap) :
    (∀ values : List Int, (∀ v ∈ values, -i64Max ≤ v ∧ v ≤ i64Max) →
      decodeVlqSegment (encodeAll values) = .ok values) ∧
    (∀ json raw lines, json.utf8ByteSize ≤ maxJsonBytes → fromStr json = some raw →
      raw.WithinLimits → MappingsWithinLimits raw.sources.length raw.names.length lines →
      asBytes raw.mappings = encodeMappings lines →
      parse fromStr json = .ok
        { sources := normalizedSources raw, names := raw.names, lines := segmentLines lines }) ∧
    (∀ json, parse fromStr json ≠ .error .panic) ∧
    (∀ accumulated shift digit r, accumulateDigit accumulated shift digit = .ok r →
      r = accumulated + digit % 32 * 2 ^ shift ∧ r ≤ u64Max) ∧
    (∀ json map, parse fromStr json = .ok map → map.WellFormed) := by
  refine ⟨fun values h => decodeVlqSegment_encodeAll h, ?_, fun json => noPanic_parse, ?_,
    fun json map h => wellFormed_of_parse h⟩
  · intro json raw lines hjson hraw hchecked hlines hencoded
    exact parse_encodeMappings hjson hraw hchecked hlines hencoded
  · intro accumulated shift digit r h
    obtain ⟨-, hfits, rfl⟩ := accumulateDigit_ok.mp h
    exact ⟨rfl, hfits⟩

/-- Two segments of a line with an empty line after it. -/
theorem source_map_decoding_sample :
    ∃ (raw : RawSourceMap) (map : SourceMap), raw.mappings = "AAAAA,CACC;" ∧
      parse (fun _ => some raw) "" = .ok map ∧
      map.lines = [[⟨0, some ⟨0, 1, 0, some 0⟩⟩, ⟨1, some ⟨0, 2, 1, none⟩⟩], []] := by
  let lines : List (List AbsoluteSegment) :=
    [[⟨0, some ⟨0, 0, 0, some 0⟩⟩, ⟨1, some ⟨0, 1, 1, none⟩⟩], []]
  let raw : RawSourceMap := ⟨3, none, ["a.ts"], ["f"], "AAAAA,CACC;", none⟩
  refine ⟨raw, _, rfl, (source_map_decoding fun _ => some raw).2.1 "" raw lines (by decide) rfl
    ?_ ?_ ?_, rfl⟩
  · refine ⟨rfl, rfl, by decide, by decide, by decide, by decide +kernel⟩
  · refine ⟨by decide, by decide, by decide, ?_⟩
    intro line hline segment hsegment
    simp only [lines, mem_cons, not_mem_nil, or_false] at hline
    rcases hline with rfl | rfl
    · simp only [mem_cons, not_mem_nil, or_false] at hsegment
      rcases hsegment with rfl | rfl <;> refine ⟨by decide, fun _ h => ?_⟩ <;>
        obtain rfl := Option.some.inj h <;> exact ⟨by decide, by decide, by decide, by decide⟩
    · cases hsegment
  · decide +kernel

end Localview
