import Mathlib.Data.String.Basic
import Localview.OrderedMap

/-! # Compact JSON texts

What a program writes as compact JSON (`JsonDoc`, its strings escaped, its members in the
order given), the values a reader answers with (`Json`, members in key order), and what
is asked of a reader: it reads what was written, up to a depth (`JsonReader`).

`compactReader` is one.  It reads compact texts only, one value at a time, and stops
where the value ends; so a text that stands in a longer one is read as it is alone
(`readValue_text`).
-/
namespace JsonText
open List Option

/-- A JSON value that is read.  Of a number it is kept whether it is an unsigned 64-bit
integer, and which. -/
inductive Json
  | null
  | bool (b : Bool)
  | number (asU64 : Option Nat)
  | string (s : String)
  | array (items : List Json)
  | object (members : List (String × Json))

/-- A JSON value that is written; its numbers are unsigned 64-bit integers. -/
inductive JsonDoc
  | str (s : String)
  | bool (b : Bool)
  | nat (n : UInt64)
  | obj (members : List (String × JsonDoc))

/-! ## Writing -/

/-- The digit of a number below sixteen. -/
def hexDigit (n : Nat) : Char := Nat.digitChar n

/-- A character in a string. -/
def escapeChar (c : Char) : List Char :=
  if c = '"' then ['\\', '"']
  else if c = '\\' then ['\\', '\\']
  else if c = '\x08' then ['\\', 'b']
  else if c = '\t' then ['\\', 't']
  else if c = '\n' then ['\\', 'n']
  else if c = '\x0c' then ['\\', 'f']
  else if c = '\r' then ['\\', 'r']
  else if c.toNat < 32 then
    ['\\', 'u', '0', '0', hexDigit (c.toNat / 16), hexDigit (c.toNat % 16)]
  else [c]

/-- The characters of a string, escaped, and the quote at its end. -/
def quotedTail (s : List Char) : List Char := s.flatMap escapeChar ++ ['"']

def quoted (s : String) : List Char := '"' :: quotedTail s.toList

mutual
/-- The text of a value. -/
def JsonDoc.text : JsonDoc → List Char
  | .str s => quoted s
  | .bool true => ['t', 'r', 'u', 'e']
  | .bool false => ['f', 'a', 'l', 's', 'e']
  | .nat n => Nat.toDigits 10 n.toNat
  | .obj members => '\x7b' :: (membersText members ++ ['\x7d'])

/-- The texts of members, with commas between them. -/
def membersText : List (String × JsonDoc) → List Char
  | [] => []
  | [(key, doc)] => quoted key ++ ':' :: doc.text
  | (key, doc) :: next :: rest => quoted key ++ ':' :: (doc.text ++ ',' :: membersText (next :: rest))
end

mutual
/-- How deep a value's objects are nested. -/
def JsonDoc.depth : JsonDoc → Nat
  | .obj members => membersDepth members + 1
  | .str _ | .bool _ | .nat _ => 0

def membersDepth : List (String × JsonDoc) → Nat
  | [] => 0
  | (_, doc) :: rest => max doc.depth (membersDepth rest)
end

mutual
/-- The value that is read where a value was written. -/
def JsonDoc.value : JsonDoc → Json
  | .str s => .string s
  | .bool b => .bool b
  | .nat n => .number (some n.toNat)
  | .obj members => .object (OrderedMap.ofList (membersValue members)).entries

def membersValue : List (String × JsonDoc) → List (String × Json)
  | [] => []
  | (key, doc) :: rest => (key, doc.value) :: membersValue rest
end

theorem membersValue_eq_map (members : List (String × JsonDoc)) :
    membersValue members = members.map fun member => (member.1, member.2.value) := by
  induction members with
  | nil => rfl
  | cons member rest ih =>
    rw [map_cons, ← ih]
    rfl

/-- How deep a reader follows. -/
def jsonDepthLimit : Nat := 127

/-- A reader of texts that reads what is written. -/
structure JsonReader where
  fromStr : List Char → Option Json
  fromStr_text : ∀ doc : JsonDoc, doc.depth ≤ jsonDepthLimit → fromStr doc.text = some doc.value

/-! ### A reader of compact texts -/

/-- What a letter after a backslash stands for. -/
def unescape : Char → Option Char
  | '"' => some '"'
  | '\\' => some '\\'
  | '/' => some '/'
  | 'b' => some '\x08'
  | 't' => some '\t'
  | 'n' => some '\n'
  | 'f' => some '\x0c'
  | 'r' => some '\r'
  | _ => none

/-- The number of a hexadecimal digit in lower case. -/
def hexValue (c : Char) : Option Nat :=
  if '0' ≤ c ∧ c ≤ '9' then some (c.toNat - 48)
  else if 'a' ≤ c ∧ c ≤ 'f' then some (c.toNat - 87)
  else none

/-- The characters of a string up to its end, and what follows. -/
def readString : List Char → Option (List Char × List Char)
  | [] => none
  | '"' :: rest => some ([], rest)
  | '\\' :: 'u' :: a :: b :: c :: d :: rest =>
      match hexValue a, hexValue b, hexValue c, hexValue d with
      | some a, some b, some c, some d =>
          (readString rest).map fun (s, rest) =>
            (Char.ofNat (((a * 16 + b) * 16 + c) * 16 + d) :: s, rest)
      | _, _, _, _ => none
  | '\\' :: e :: rest =>
      (unescape e).bind fun c => (readString rest).map fun (s, rest) => (c :: s, rest)
  | c :: rest => (readString rest).map fun (s, rest) => (c :: s, rest)

/-- The largest unsigned 64-bit integer. -/
def jsonU64Max : Nat := 18446744073709551615

/-- A value that is no object. -/
def readScalar : List Char → Option (Json × List Char)
  | '"' :: rest => (readString rest).map fun (s, rest) => (.string (String.ofList s), rest)
  | 't' :: 'r' :: 'u' :: 'e' :: rest => some (.bool true, rest)
  | 'f' :: 'a' :: 'l' :: 's' :: 'e' :: rest => some (.bool false, rest)
  | text =>
      let digits := text.takeWhile Char.isDigit
      if digits = [] then none
      else
        let n := Nat.ofDigitChars 10 digits 0
        some (.number (if n ≤ jsonU64Max then some n else none), text.dropWhile Char.isDigit)

/-- The members of an object that has some, and what follows it. -/
def readMembers (read : List Char → Option (Json × List Char)) :
    Nat → List Char → Option (List (String × Json) × List Char)
  | fuel + 1, '"' :: text =>
      match readString text with
      | some (key, ':' :: text) =>
          match read text with
          | some (value, ',' :: text) => (readMembers read fuel text).map fun (members, text) =>
              ((String.ofList key, value) :: members, text)
          | some (value, '\x7d' :: text) => some ([(String.ofList key, value)], text)
          | _ => none
      | _ => none
  | _, _ => none

/-- A value, its objects nested no deeper than a number, and what follows it. -/
def readValue : Nat → List Char → Option (Json × List Char)
  | _ + 1, '\x7b' :: '\x7d' :: rest => some (.object [], rest)
  | depth + 1, '\x7b' :: rest =>
      (readMembers (readValue depth) rest.length rest).map fun (members, rest) =>
        (.object (OrderedMap.ofList members).entries, rest)
  | _, text => readScalar text

def readText (text : List Char) : Option Json :=
  match readValue jsonDepthLimit text with
  | some (value, []) => some value
  | _ => none

/-! ### What it reads -/

theorem hexValue_hexDigit : ∀ n, n < 16 → hexValue (hexDigit n) = some n := by decide

theorem readString_escapeChar (c : Char) (rest : List Char) :
    readString (escapeChar c ++ rest) = (readString rest).map fun (s, rest) => (c :: s, rest) := by
  rw [escapeChar]
  split_ifs with h₁ h₂ h₃ h₄ h₅ h₆ h₇ h₈
  · rw [h₁]; rfl
  · rw [h₂]; rfl
  · rw [h₃]; rfl
  · rw [h₄]; rfl
  · rw [h₅]; rfl
  · rw [h₆]; rfl
  · rw [h₇]; rfl
  · -- the two digits make the character up again
    have hhigh := hexValue_hexDigit (c.toNat / 16) (by omega)
    have hlow := hexValue_hexDigit (c.toNat % 16) (by omega)
    have hzero : hexValue '0' = some 0 := by decide
    have hback : ((0 * 16 + 0) * 16 + c.toNat / 16) * 16 + c.toNat % 16 = c.toNat := by omega
    simp only [cons_append, nil_append, readString, hhigh, hlow, hzero, hback,
      Char.ofNat_toNat]
  · rw [singleton_append, readString.eq_def]
    split
    · next heq => cases heq
    · next heq => exact absurd (List.cons.inj heq).1 h₁
    · next heq => exact absurd (List.cons.inj heq).1 h₂
    · next heq => exact absurd (List.cons.inj heq).1 h₂
    · next heq =>
      obtain ⟨rfl, rfl⟩ := List.cons.inj heq
      rfl

theorem readString_quotedTail (s rest : List Char) :
    readString (quotedTail s ++ rest) = some (s, rest) := by
  induction s with
  | nil => rfl
  | cons c s ih =>
    rw [quotedTail, flatMap_cons, append_assoc, append_assoc,
      readString_escapeChar, ← append_assoc]
    rw [quotedTail] at ih
    rw [ih]
    rfl

theorem readScalar_quoted (s : String) (rest : List Char) :
    readScalar (quoted s ++ rest) = some (.string s, rest) := by
  have h := readString_quotedTail s.toList rest
  simp only [quoted, cons_append, readScalar, h, map_some, String.ofList_toList]

/-- A text after which no number goes on. -/
def Stops (rest : List Char) : Prop := ∀ c text, rest = c :: text → c.isDigit = false

theorem takeWhile_digits {digits rest : List Char} (h : ∀ c ∈ digits, c.isDigit = true)
    (hrest : Stops rest) :
    (digits ++ rest).takeWhile Char.isDigit = digits ∧
      (digits ++ rest).dropWhile Char.isDigit = rest := by
  have hnone : rest.takeWhile Char.isDigit = [] ∧ rest.dropWhile Char.isDigit = rest := by
    cases rest with
    | nil => exact ⟨rfl, rfl⟩
    | cons c text =>
      have hc := hrest c text rfl
      constructor
      · rw [takeWhile_cons_of_neg (by simp [hc])]
      · rw [dropWhile_cons_of_neg (by simp [hc])]
  rw [takeWhile_append_of_pos h, dropWhile_append_of_pos h, hnone.1, hnone.2,
    append_nil]
  exact ⟨rfl, rfl⟩

theorem readScalar_digits (n : Nat) {rest : List Char} (hrest : Stops rest) :
    readScalar (Nat.toDigits 10 n ++ rest) =
      some (.number (if n ≤ jsonU64Max then some n else none), rest) := by
  have hdigits : ∀ c ∈ Nat.toDigits 10 n, c.isDigit = true := fun c hc =>
    Nat.isDigit_of_mem_toDigits (by decide) (by decide) hc
  obtain ⟨htake, hdrop⟩ := takeWhile_digits hdigits hrest
  have hother : readScalar (Nat.toDigits 10 n ++ rest) =
      if (Nat.toDigits 10 n ++ rest).takeWhile Char.isDigit = [] then none
      else some (.number (if Nat.ofDigitChars 10 ((Nat.toDigits 10 n ++ rest).takeWhile
        Char.isDigit) 0 ≤ jsonU64Max then some (Nat.ofDigitChars 10 ((Nat.toDigits 10 n ++
          rest).takeWhile Char.isDigit) 0) else none),
        (Nat.toDigits 10 n ++ rest).dropWhile Char.isDigit) := by
    rw [readScalar.eq_def]
    -- what starts with a digit is neither a string nor a word
    cases hn : Nat.toDigits 10 n with
    | nil => exact absurd hn Nat.toDigits_ne_nil
    | cons c cs =>
      have hc : c.isDigit = true := hdigits c (by rw [hn]; exact mem_cons_self)
      split
      · next heq =>
        rw [(List.cons.inj heq).1] at hc
        exact absurd hc (by decide)
      · next heq =>
        rw [(List.cons.inj heq).1] at hc
        exact absurd hc (by decide)
      · next heq =>
        rw [(List.cons.inj heq).1] at hc
        exact absurd hc (by decide)
      · rfl
  rw [hother, htake, hdrop, if_neg Nat.toDigits_ne_nil, Nat.ofDigitChars_ten_toDigits]

/-- What does not open an object is no object. -/
theorem readValue_scalar {depth : Nat} {text : List Char} (h : ∀ rest, text ≠ '\x7b' :: rest) :
    readValue depth text = readScalar text := by
  rw [readValue.eq_def]
  split
  · exact absurd rfl (h _)
  · exact absurd rfl (h _)
  · rfl

theorem digits_ne_brace (n : Nat) (rest : List Char) (text : List Char) :
    Nat.toDigits 10 n ++ rest ≠ '\x7b' :: text := by
  cases hn : Nat.toDigits 10 n with
  | nil => exact absurd hn Nat.toDigits_ne_nil
  | cons c cs =>
    have hc : c.isDigit = true :=
      Nat.isDigit_of_mem_toDigits (b := 10) (n := n) (by decide) (by decide)
        (by rw [hn]; exact mem_cons_self)
    intro heq
    rw [(List.cons.inj heq).1] at hc
    exact absurd hc (by decide)

/-- Members begin with the quote of a key. -/
theorem membersText_head (member : String × JsonDoc) (rest : List (String × JsonDoc)) :
    ∃ text, membersText (member :: rest) = '"' :: text := by
  cases rest with
  | nil => exact ⟨_, rfl⟩
  | cons next rest => exact ⟨_, rfl⟩

theorem length_le_membersText (members : List (String × JsonDoc)) :
    members.length ≤ (membersText members).length := by
  induction members with
  | nil => exact Nat.le_refl 0
  | cons member rest ih =>
    cases rest with
    | nil =>
      simp only [membersText, quoted, cons_append, length_cons, length_nil]
      omega
    | cons next rest =>
      simp only [membersText, quoted, cons_append, length_cons, length_append] at ih ⊢
      omega

/-- Members are read if their values are. -/
theorem readMembers_text {read : List Char → Option (Json × List Char)}
    {members : List (String × JsonDoc)} (hne : members ≠ [])
    (hread : ∀ member ∈ members, ∀ rest, Stops rest →
      read (member.2.text ++ rest) = some (member.2.value, rest))
    {fuel : Nat} (hfuel : members.length ≤ fuel) (rest : List Char) :
    readMembers read fuel (membersText members ++ '\x7d' :: rest) =
      some (membersValue members, rest) := by
  have hstops : ∀ c text, c.isDigit = false → Stops (c :: text) := by
    intro c text hc c' text' heq
    rw [← (List.cons.inj heq).1]
    exact hc
  induction members generalizing fuel with
  | nil => exact absurd rfl hne
  | cons member others ih =>
    obtain ⟨key, doc⟩ := member
    obtain ⟨fuel, rfl⟩ : ∃ n, fuel = n + 1 := ⟨fuel - 1, by rw [length_cons] at hfuel; omega⟩
    have hkey := fun text => readString_quotedTail key.toList (':' :: text)
    have hdoc := hread (key, doc) mem_cons_self
    cases others with
    | nil =>
      have hvalue := hdoc _ (hstops '\x7d' rest (by decide))
      simp only [membersText, quoted, cons_append, append_assoc, readMembers, hkey,
        hvalue, String.ofList_toList]
      rfl
    | cons next others =>
      have hlength : (next :: others).length ≤ fuel := by
        rw [length_cons] at hfuel
        omega
      have hrest := ih (by simp) (fun member hmember => hread member (mem_cons_of_mem _ hmember))
        hlength
      have hvalue := hdoc _ (hstops ',' (membersText (next :: others) ++ '\x7d' :: rest) (by decide))
      simp only [membersText, quoted, cons_append, append_assoc, readMembers, hkey,
        hvalue, hrest, map_some, String.ofList_toList]
      rfl

theorem depth_le_membersDepth {members : List (String × JsonDoc)} {member : String × JsonDoc}
    (h : member ∈ members) : member.2.depth ≤ membersDepth members := by
  induction members with
  | nil => cases h
  | cons first rest ih =>
    rw [membersDepth]
    rcases mem_cons.mp h with rfl | h
    · exact le_max_left _ _
    · exact (ih h).trans (le_max_right _ _)

theorem readValue_text_scalar {doc : JsonDoc} (h : doc.depth = 0) (depth : Nat)
    {rest : List Char} (hrest : Stops rest) :
    readValue depth (doc.text ++ rest) = some (doc.value, rest) := by
  cases doc with
  | str s =>
    rw [readValue_scalar (by simp [JsonDoc.text, quoted])]
    exact readScalar_quoted s rest
  | bool b => cases b <;> cases depth <;> rfl
  | nat n =>
    have hu64 : n.toNat ≤ jsonU64Max := Nat.le_of_lt_succ n.toNat_lt
    rw [JsonDoc.text, readValue_scalar (digits_ne_brace n.toNat rest),
      readScalar_digits n.toNat hrest, if_pos hu64]
    rfl
  | obj members => cases h

/-- **What is written is read**, and the rest is left. -/
theorem readValue_text {depth : Nat} {doc : JsonDoc} (h : doc.depth ≤ depth) {rest : List Char}
    (hrest : Stops rest) : readValue depth (doc.text ++ rest) = some (doc.value, rest) := by
  induction depth generalizing doc rest with
  | zero => exact readValue_text_scalar (Nat.le_zero.mp h) 0 hrest
  | succ depth ih =>
    cases doc with
    | str _ | bool _ | nat _ => exact readValue_text_scalar rfl (depth + 1) hrest
    | obj members =>
      rw [JsonDoc.depth] at h
      cases members with
      | nil => rfl
      | cons member members =>
        have hread : ∀ m ∈ member :: members, ∀ rest, Stops rest →
            readValue depth (m.2.text ++ rest) = some (m.2.value, rest) := by
          intro m hm rest hrest
          have hdepth := depth_le_membersDepth hm
          exact ih (by omega) hrest
        have hlength : (member :: members).length ≤
            (membersText (member :: members) ++ '\x7d' :: rest).length := by
          have := length_le_membersText (member :: members)
          rw [length_append]
          omega
        have hmembers := readMembers_text (cons_ne_nil member members) hread hlength rest
        obtain ⟨text, htext⟩ := membersText_head member members
        rw [htext, cons_append] at hmembers
        rw [JsonDoc.text, JsonDoc.value, htext, cons_append, append_assoc,
          cons_append, singleton_append, readValue, hmembers, map_some]
        exact fun _ heq => absurd (List.cons.inj heq).1 (by decide)

theorem readText_text {doc : JsonDoc} (h : doc.depth ≤ jsonDepthLimit) :
    readText doc.text = some doc.value := by
  have hread : readValue jsonDepthLimit (doc.text ++ []) = some (doc.value, []) :=
    readValue_text h fun _ _ heq => by cases heq
  rw [append_nil] at hread
  rw [readText, hread]

def compactReader : JsonReader := ⟨readText, fun _ => readText_text⟩

end JsonText
