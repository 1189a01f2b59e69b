import Localview.NumeralCodec
import Localview.SurfaceRecovery

/-! # A lawful event codec

The recovery journal is proved about over any `SurfaceEventCodec`.  Here is one:
an event is a list of numbers, and its line is these numbers as numerals, each
ended by a comma, in braces.  Only the first byte of a line is an opening brace,
so pieces of several lines are never one line.
-/
namespace Localview
open RecordLog List

/-- The comma and the braces. -/
def comma : UInt8 := 44
def openBrace : UInt8 := 123
def closeBrace : UInt8 := 125

theorem toNat_of_mem_numeralLine {n : Nat} {b : UInt8} (h : b ∈ numeralLine n) :
    b.toNat = 35 ∨ 48 ≤ b.toNat ∧ b.toNat < 58 := by
  rcases mem_cons.mp h with rfl | h
  · exact .inl rfl
  · obtain ⟨d, hd, rfl⟩ := mem_map.mp h
    have hlt : d < 10 := Nat.digits_lt_base (by omega) hd
    rw [UInt8.toNat_ofNat']
    omega

def numbersLine (numbers : List Nat) : Bytes :=
  openBrace :: (render comma (numbers.map numeralLine) ++ [closeBrace])

def lineNumbers (line : Bytes) : Option (List Nat) :=
  let numbers := (split comma (line.tail.dropLast)).1.filterMap lineNumeral
  if numbersLine numbers = line then some numbers else none

theorem comma_not_mem_numeralLine (n : Nat) : comma ∉ numeralLine n := by
  intro h
  have hrange := toNat_of_mem_numeralLine h
  rw [show comma.toNat = 44 from rfl] at hrange
  omega

theorem lineNumbers_numbersLine (numbers : List Nat) :
    lineNumbers (numbersLine numbers) = some numbers := by
  have hnot : ∀ r ∈ numbers.map numeralLine, comma ∉ r := by
    intro r hr
    obtain ⟨n, -, rfl⟩ := mem_map.mp hr
    exact comma_not_mem_numeralLine n
  have hsplit : split comma (render comma (numbers.map numeralLine)) =
      (numbers.map numeralLine, []) := by
    have h := split_render_append hnot (not_mem_nil (a := comma))
    rwa [append_nil] at h
  have hnumbers : (numbers.map numeralLine).filterMap lineNumeral = numbers := by
    rw [filterMap_map]
    refine (filterMap_congr fun n _ => lineNumeral_numeralLine n).trans ?_
    exact filterMap_some
  have hbody : (numbersLine numbers).tail.dropLast = render comma (numbers.map numeralLine) := by
    rw [numbersLine, tail_cons, dropLast_concat]
  rw [lineNumbers, hbody, hsplit]
  simp only [hnumbers, if_true]

/-- Between the braces are numerals and commas. -/
theorem mem_render_numerals {numbers : List Nat} {b : UInt8}
    (h : b ∈ render comma (numbers.map numeralLine)) : 32 ≤ b.toNat ∧ b.toNat < 58 := by
  rw [render, mem_flatMap] at h
  obtain ⟨r, hr, hb⟩ := h
  obtain ⟨n, -, rfl⟩ := mem_map.mp hr
  rcases mem_append.mp hb with hb | hb
  · have hrange := toNat_of_mem_numeralLine hb
    omega
  · rw [mem_singleton.mp hb]
    decide

section
variable (event : SurfaceRecoveryEvent)

def SurfaceRecoveryEvent.numbers : List Nat :=
  let tag := match event with
    | .activated _ => 0
    | .released _ => 1
    | .reattached _ => 2
  tag :: event.key.sessionId.toNat :: event.key.incarnation :: event.key.ownerInstanceId.toNat ::
    event.key.surfaceKind.toList.length ::
    (event.key.surfaceKind.toList.map Char.toNat ++ event.key.label.toList.map Char.toNat)

def numbersEvent : List Nat → Option SurfaceRecoveryEvent
  | tag :: sessionId :: incarnation :: ownerInstanceId :: kindLength :: chars =>
      let key : SurfaceRecoveryKey :=
        { sessionId := BitVec.ofNat 128 sessionId
          surfaceKind := String.ofList ((chars.take kindLength).map Char.ofNat)
          label := String.ofList ((chars.drop kindLength).map Char.ofNat), incarnation
          ownerInstanceId := BitVec.ofNat 128 ownerInstanceId }
      match tag with
      | 0 => some (.activated key)
      | 1 => some (.released key)
      | 2 => some (.reattached key)
      | _ => none
  | _ => none

theorem numbersEvent_numbers : numbersEvent event.numbers = some event := by
  have hchars : ∀ cs : List Char, (cs.map Char.toNat).map Char.ofNat = cs := by
    intro cs
    rw [map_map]
    exact (map_congr_left fun c _ => Char.ofNat_toNat c).trans (map_id cs)
  have hkind : ∀ key : SurfaceRecoveryKey,
      (key.surfaceKind.toList.map Char.toNat ++ key.label.toList.map Char.toNat).take
        key.surfaceKind.toList.length = key.surfaceKind.toList.map Char.toNat :=
    fun key => take_left' (by simp)
  have hlabel : ∀ key : SurfaceRecoveryKey,
      (key.surfaceKind.toList.map Char.toNat ++ key.label.toList.map Char.toNat).drop
        key.surfaceKind.toList.length = key.label.toList.map Char.toNat :=
    fun key => drop_left' (by simp)
  cases event <;>
    simp [SurfaceRecoveryEvent.numbers, SurfaceRecoveryEvent.key, numbersEvent, hkind, hlabel, hchars]

def eventLine : Bytes := numbersLine event.numbers

/-- A line: the opening brace, what neither brace is in, the closing brace. -/
theorem eventLine_eq : ∃ body, eventLine event = openBrace :: body ++ [closeBrace] ∧
      ∀ b ∈ body, 32 ≤ b.toNat ∧ b.toNat < 58 :=
  ⟨_, rfl, fun _ hb => mem_render_numerals hb⟩

theorem count_openBrace_body {body : Bytes} (h : ∀ b ∈ body, 32 ≤ b.toNat ∧ b.toNat < 58) :
    body.count openBrace = 0 :=
  count_eq_zero.mpr fun hmem => absurd (h _ hmem).2 (by decide)

theorem count_openBrace_eventLine : (eventLine event).count openBrace = 1 := by
  obtain ⟨body, heq, hbody⟩ := eventLine_eq event
  rw [heq, cons_append, count_cons, count_append, count_openBrace_body hbody]
  rfl

theorem eventLine_ascii : ∀ b ∈ eventLine event, 32 ≤ b.toNat ∧ b.toNat < 128 := by
  obtain ⟨body, heq, hbody⟩ := eventLine_eq event
  intro b hb
  rw [heq] at hb
  rcases mem_append.mp hb with hb | hb
  · rcases mem_cons.mp hb with rfl | hb
    · decide
    · have hrange := hbody b hb
      omega
  · rw [mem_singleton.mp hb]
    decide

end

theorem utf8EncodeChar_ascii : ∀ n : Fin 128,
    String.utf8EncodeChar (Char.ofNat n) = [UInt8.ofNat n] := by
  decide

/-- ASCII bytes are text. -/
theorem isValidUTF8_of_ascii {bytes : Bytes} (h : ∀ b ∈ bytes, b.toNat < 128) :
    bytes.toByteArray.IsValidUTF8 := by
  induction bytes with
  | nil => exact ByteArray.isValidUTF8_empty
  | cons b bytes ih =>
    have hb : b.toNat < 128 := h b mem_cons_self
    have hone : [b].toByteArray.IsValidUTF8 := by
      have hchar := utf8EncodeChar_ascii ⟨b.toNat, hb⟩
      refine .intro [Char.ofNat b.toNat] ?_
      rw [utf8Encode_singleton, hchar]
      simp
    rw [← singleton_append, toByteArray_append]
    exact hone.append (ih fun c hc => h c (mem_cons_of_mem _ hc))

/-- A nonempty beginning of a line has the one opening brace. -/
theorem count_openBrace_prefix {event : SurfaceRecoveryEvent} {part : Bytes} (hne : part ≠ [])
    (hpart : part <+: eventLine event) : part.count openBrace = 1 := by
  obtain ⟨body, heq, -⟩ := eventLine_eq event
  obtain ⟨b, rest, rfl⟩ := exists_cons_of_ne_nil hne
  have hb : b = openBrace := by
    rw [heq] at hpart
    exact (cons_prefix_cons.mp hpart).1
  have hle := hpart.sublist.count_le openBrace
  rw [count_openBrace_eventLine] at hle
  have hpos : 0 < (b :: rest).count openBrace := count_pos_iff.mpr (by simp [hb])
  omega

/-- No line is a proper beginning of another. -/
theorem eq_of_prefix_eventLine {event event' : SurfaceRecoveryEvent}
    (h : eventLine event <+: eventLine event') : eventLine event = eventLine event' := by
  obtain ⟨body, heq, -⟩ := eventLine_eq event
  obtain ⟨body', heq', hbody'⟩ := eventLine_eq event'
  rw [heq'] at h
  rcases prefix_concat_iff.mp h with h | h
  · rw [h, heq']
  · have hmem : closeBrace ∈ openBrace :: body' := h.subset (by rw [heq]; simp)
    rcases mem_cons.mp hmem with hmem | hmem
    · exact absurd hmem (by decide)
    · exact absurd (hbody' _ hmem).2 (by decide)

/-- Pieces of several lines are not a line. -/
theorem glued_eventLine {chunks : List (SurfaceRecoveryEvent × Bytes)} {event : SurfaceRecoveryEvent}
    (hchunks : ∀ c ∈ chunks, c.2 ≠ [] ∧ c.2 <+: eventLine c.1)
    (heq : chunks.flatMap (·.2) = eventLine event) :
    ∃ e, chunks = [(e, eventLine e)] := by
  -- as many chunks as opening braces
  have hlen : ∀ cs : List (SurfaceRecoveryEvent × Bytes),
      (∀ c ∈ cs, c.2 ≠ [] ∧ c.2 <+: eventLine c.1) →
      (cs.flatMap (·.2)).count openBrace = cs.length := by
    intro cs hcs
    induction cs with
    | nil => rfl
    | cons c cs ih =>
      obtain ⟨hne, hpart⟩ := hcs c mem_cons_self
      rw [flatMap_cons, count_append, count_openBrace_prefix hne hpart,
        ih fun d hd => hcs d (mem_cons_of_mem _ hd), length_cons]
      omega
  have hone : chunks.length = 1 := by rw [← hlen chunks hchunks, heq, count_openBrace_eventLine]
  obtain ⟨⟨e, part⟩, rfl⟩ := length_eq_one_iff.mp hone
  obtain rfl : part = eventLine event := by simpa using heq
  have hpart := (hchunks _ mem_cons_self).2
  exact ⟨e, by rw [eq_of_prefix_eventLine hpart]⟩

/-- Lines are lists of numerals. -/
def surfaceNumeralCodec : SurfaceEventCodec where
  toVec event := .ok (eventLine event)
  fromStr line :=
    match (lineNumbers line).bind numbersEvent with
    | some event => if eventLine event = line then .ok event else .error "not canonical"
    | none => .error "malformed event"
  fromStr_toVec := by
    intro e line h
    obtain rfl : eventLine e = line := by simpa using h
    simp [eventLine, lineNumbers_numbersLine, numbersEvent_numbers]
  printable := by
    intro e line h b hb
    obtain rfl : eventLine e = line := by simpa using h
    exact (eventLine_ascii e b hb).1
  utf8 := by
    intro e line h
    obtain rfl : eventLine e = line := by simpa using h
    exact isValidUTF8_of_ascii fun b hb => (eventLine_ascii e b hb).2
  glued := by
    intro chunks e hchunks hread
    have hline : eventLine e = chunks.flatMap (·.2) := by
      split at hread
      · split at hread
        · next heq => rw [← Except.ok.inj hread, heq]
        · cases hread
      · cases hread
    have hparts : ∀ c ∈ chunks, c.2 ≠ [] ∧ c.2 <+: eventLine c.1 := by
      intro c hc
      obtain ⟨hne, line, hl, hpart⟩ := hchunks c hc
      obtain rfl : eventLine c.1 = line := by simpa using hl
      exact ⟨hne, hpart⟩
    obtain ⟨e', rfl⟩ := glued_eventLine hparts hline.symm
    exact ⟨e', _, rfl, rfl⟩

end Localview
