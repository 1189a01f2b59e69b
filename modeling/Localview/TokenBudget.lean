import Localview.EvidenceStore

/-! # Values within a token budget

A value that is too long for its budget is given whole (deep), reduced to the members of a
summary (minimal), or trimmed (normal): lists of its members cut to 24 items and, if the
text is still too long, a preview of it in an envelope.  The preview is cut by bytes, which
panics inside a character, and its text is escaped once more in the envelope.

A Rust string has less than `2 ^ 63` bytes, so where a budget is exceeded four times its
tokens do not overflow.
-/
namespace Localview
open JsonText List

/-- How much of a packet is wanted. -/
inductive DetailLevel
  | minimal
  | normal
  | deep

/-- How much text, in what detail. -/
structure TokenBudget where
  maxTokens : Nat
  detail : DetailLevel

def approximateTokens (text : List Char) : Nat := (text.length + 3) / 4

def summaryKeys : List String :=
  ["version", "route", "changed_refs", "removed_refs", "console_delta", "network_delta",
    "layout_changes"]

def summaryJson : JsonValue → JsonValue
  | .object members => .object (members.filter fun member => decide (member.1 ∈ summaryKeys))
  | other => other

/-- `str::len`: how many bytes the text has. -/
def byteLength (text : List Char) : Nat := (text.map Char.utf8Size).sum

/-- `String::truncate` at a byte position before the end, which panics inside a character. -/
def truncateBytes : Nat → List Char → Option (List Char)
  | 0, _ => some []
  | _ + 1, [] => some []
  | n + 1, c :: rest =>
    if c.utf8Size ≤ n + 1 then (truncateBytes (n + 1 - c.utf8Size) rest).map (c :: ·) else none

/-- A list of at most 24 items. -/
def truncateItems : JsonValue → JsonValue
  | .array items => .array (items.take 24)
  | other => other

def trimArrays : JsonValue → JsonValue
  | .object members => .object (members.map fun member => (member.1, truncateItems member.2))
  | other => other

/-- What stands for a value that is too long. -/
def envelope (preview : List Char) : JsonValue :=
  .object [("preview", .string (String.ofList preview)), ("truncated", .bool true)]

/-- `none` is a panic. -/
def trimJson (value : JsonValue) (maxChars : Nat) : Option JsonValue :=
  let trimmed := trimArrays value
  if maxChars < byteLength trimmed.text then
    (truncateBytes (maxChars - 40) trimmed.text).map envelope
  else some trimmed

def serializeWithBudget (value : JsonValue) (budget : TokenBudget) : Option JsonValue :=
  if approximateTokens value.text ≤ budget.maxTokens then some value
  else
    match budget.detail with
    | .deep => some value
    | .normal => trimJson value (budget.maxTokens * 4)
    | .minimal => some (summaryJson value)

/-! ## Bytes and characters -/

theorem approximateTokens_le_iff {text : List Char} {n : Nat} :
    approximateTokens text ≤ n ↔ text.length ≤ n * 4 := by
  rw [approximateTokens]
  omega

theorem byteLength_cons (c : Char) (text : List Char) :
    byteLength (c :: text) = c.utf8Size + byteLength text := by
  rw [byteLength, map_cons, sum_cons]
  rfl

theorem length_le_byteLength (text : List Char) : text.length ≤ byteLength text := by
  induction text with
  | nil => exact Nat.le_refl 0
  | cons c rest ih =>
    have hpos := c.utf8Size_pos
    rw [length_cons, byteLength_cons]
    omega

/-- A preview is the start of the text, and has the bytes asked for unless there are less. -/
theorem truncateBytes_eq_some {n : Nat} {text kept : List Char}
    (h : truncateBytes n text = some kept) : kept <+: text ∧ byteLength kept ≤ n := by
  induction text generalizing n kept with
  | nil =>
    cases n with
    | zero =>
      cases h
      exact ⟨List.nil_prefix, Nat.le_refl 0⟩
    | succ n =>
      cases h
      exact ⟨List.nil_prefix, Nat.zero_le _⟩
  | cons c rest ih =>
    cases n with
    | zero =>
      cases h
      exact ⟨List.nil_prefix, Nat.le_refl 0⟩
    | succ n =>
      rw [truncateBytes] at h
      split_ifs at h with hfits
      obtain ⟨later, hlater, rfl⟩ := Option.map_eq_some_iff.mp h
      obtain ⟨hstart, hlength⟩ := ih hlater
      refine ⟨(cons_prefix_cons).mpr ⟨rfl, hstart⟩, ?_⟩
      rw [byteLength_cons]
      omega

/-- The envelope has 31 characters besides the escaped preview. -/
theorem length_envelope (preview : List Char) :
    (envelope preview).text.length = (preview.flatMap escapeChar).length + 31 := by
  have htext : (envelope preview).text =
      "\x7b\"preview\":\"".toList ++ (preview.flatMap escapeChar ++ "\",\"truncated\":true\x7d".toList) := by
    simp [envelope, JsonValue.text, valuesText, quoted, quotedTail, escapeChar]
  rw [htext, length_append, length_append]
  have hstart : "\x7b\"preview\":\"".toList.length = 12 := by decide
  have hend : "\",\"truncated\":true\x7d".toList.length = 19 := by decide
  omega

/-- How much longer a text gets when it is escaped. -/
def addedByEscapes (text : List Char) : Nat := (text.flatMap escapeChar).length - text.length

/-- A preview within its bytes is within the budget in its envelope, if its escapes add no
more than what is set aside for the envelope and not used by it. -/
theorem envelope_within {maxTokens : Nat} {preview : List Char}
    (hminimal : approximateTokens (envelope []).text ≤ maxTokens)
    (hbytes : byteLength preview ≤ maxTokens * 4 - 40) (hescapes : addedByEscapes preview ≤ 9) :
    approximateTokens (envelope preview).text ≤ maxTokens := by
  rw [approximateTokens_le_iff, length_envelope] at hminimal ⊢
  rw [addedByEscapes] at hescapes
  have hlength := length_le_byteLength preview
  by_cases hsmall : maxTokens < 10
  · -- nothing is left for the preview
    have hempty : preview = [] := length_eq_zero_iff.mp (by omega)
    rw [hempty]
    exact hminimal
  · omega

/-- What is returned, at each level of detail.  A value that fits is returned as it is, and
so is any value in full detail; a minimal one is its summary.  A normal one is the value
with its lists cut, within the budget, where that is short enough in bytes; else, cut
between two characters, the envelope of its start. -/
structure BudgetKept (value : JsonValue) (budget : TokenBudget) : Prop where
  fits : approximateTokens value.text ≤ budget.maxTokens →
    serializeWithBudget value budget = some value
  deep : budget.detail = .deep → serializeWithBudget value budget = some value
  minimal : budget.detail = .minimal → budget.maxTokens < approximateTokens value.text →
    serializeWithBudget value budget = some (summaryJson value)
  trimmed : budget.detail = .normal → budget.maxTokens < approximateTokens value.text →
    byteLength (trimArrays value).text ≤ budget.maxTokens * 4 →
      serializeWithBudget value budget = some (trimArrays value) ∧
      approximateTokens (trimArrays value).text ≤ budget.maxTokens
  preview : budget.detail = .normal → budget.maxTokens < approximateTokens value.text →
    budget.maxTokens * 4 < byteLength (trimArrays value).text →
    ∀ start, truncateBytes (budget.maxTokens * 4 - 40) (trimArrays value).text = some start →
      serializeWithBudget value budget = some (envelope start) ∧
      start <+: (trimArrays value).text ∧
      (approximateTokens (envelope []).text ≤ budget.maxTokens → addedByEscapes start ≤ 9 →
        approximateTokens (envelope start).text ≤ budget.maxTokens)

/-- **The token budget**, for every value, level of detail and number of tokens. -/
theorem serializeWithBudget_kept (value : JsonValue) (budget : TokenBudget) :
    BudgetKept value budget := by
  obtain ⟨maxTokens, detail⟩ := budget
  have hover : maxTokens < approximateTokens value.text →
      ¬ approximateTokens value.text ≤ maxTokens := Nat.not_le.mpr
  refine ⟨fun hfits => if_pos hfits, fun hdeep => ?_, fun hminimal hlong => ?_,
    fun hnormal hlong hshort => ?_, fun hnormal hlong hbytes start hstart => ?_⟩
  · rw [serializeWithBudget]
    simp only at hdeep
    subst hdeep
    exact ite_self _
  · simp only at hminimal
    subst hminimal
    exact if_neg (hover hlong)
  · simp only at hnormal hshort
    subst hnormal
    have hresult : serializeWithBudget value ⟨maxTokens, .normal⟩ =
        trimJson value (maxTokens * 4) := if_neg (hover hlong)
    rw [hresult, trimJson, if_neg (Nat.not_lt.mpr hshort)]
    refine ⟨rfl, approximateTokens_le_iff.mpr ?_⟩
    exact Nat.le_trans (length_le_byteLength _) hshort
  · simp only at hnormal hbytes hstart
    subst hnormal
    have hresult : serializeWithBudget value ⟨maxTokens, .normal⟩ =
        trimJson value (maxTokens * 4) := if_neg (hover hlong)
    obtain ⟨hstarts, hlength⟩ := truncateBytes_eq_some hstart
    rw [hresult, trimJson, if_pos hbytes, hstart]
    exact ⟨rfl, hstarts, fun hminimal => envelope_within hminimal hlength⟩

/-- In full detail a value of 26 tokens is returned for a budget of 8. -/
theorem deep_exceeds_budget :
    ¬ ∀ (value : JsonValue) (budget : TokenBudget),
      approximateTokens (envelope []).text ≤ budget.maxTokens →
        ∃ returned, serializeWithBudget value budget = some returned ∧
          approximateTokens returned.text ≤ budget.maxTokens := by
  intro h
  obtain ⟨returned, hreturned, hle⟩ := h (.string (String.ofList (List.replicate 100 'a')))
    ⟨8, .deep⟩ (by decide)
  have hwhole : serializeWithBudget (.string (String.ofList (List.replicate 100 'a')))
      ⟨8, .deep⟩ = some (.string (String.ofList (List.replicate 100 'a'))) := ite_self _
  rw [hwhole] at hreturned
  cases hreturned
  revert hle
  decide

end Localview
