import Localview.EvidenceStore

/-! # Values read off their texts

The compact text of a JSON value says which value it is, as long as the numbers in it are
numerals: the first character says of what kind the value is, and each kind says itself
where it ends (`text_inj`).  What a canonical object holds under a key is read from the
object it was made of (`lookup_canonical`).
-/
namespace Localview
open JsonText List OrderedMap

/-! ## Kinds -/

/-- The kind of a value. -/
def JsonValue.shape : JsonValue → Nat
  | .null => 0
  | .bool true => 1
  | .bool false => 2
  | .string _ => 3
  | .array _ => 4
  | .object _ => 5
  | .number _ => 6

/-- The kind that a value with this first character has. -/
def shapeOf (c : Char) : Nat :=
  if c = 'n' then 0
  else if c = 't' then 1
  else if c = 'f' then 2
  else if c = '"' then 3
  else if c = '[' then 4
  else if c = '\x7b' then 5
  else 6

def Numeral (text : String) : Prop := text.toList ≠ [] ∧ ∀ c ∈ text.toList, c.isDigit = true

mutual

def JsonValue.Plain : JsonValue → Prop
  | .null | .bool _ | .string _ => True
  | .number text => Numeral text
  | .array items => PlainItems items
  | .object members => PlainMembers members

def PlainItems : List JsonValue → Prop
  | [] => True
  | item :: items => item.Plain ∧ PlainItems items

def PlainMembers : List (String × JsonValue) → Prop
  | [] => True
  | member :: members => member.2.Plain ∧ PlainMembers members

end

theorem shapeOf_digit {c : Char} (h : c.isDigit = true) : shapeOf c = 6 := by
  have hne : ∀ d : Char, d.isDigit = false → c ≠ d := by
    rintro d hd rfl
    rw [hd] at h
    cases h
  rw [shapeOf, if_neg (hne 'n' rfl), if_neg (hne 't' rfl), if_neg (hne 'f' rfl),
    if_neg (hne '"' rfl), if_neg (hne '[' rfl), if_neg (hne '\x7b' rfl)]

/-- The first character tells the kind, and does not end an array. -/
theorem exists_text_eq_cons {value : JsonValue} (h : value.Plain) :
    ∃ c tail, value.text = c :: tail ∧ shapeOf c = value.shape ∧ c ≠ ']' := by
  cases value with
  | null => exact ⟨_, _, rfl, rfl, by decide⟩
  | bool b => cases b <;> exact ⟨_, _, rfl, rfl, by decide⟩
  | string s => exact ⟨_, _, rfl, rfl, by decide⟩
  | array items => exact ⟨_, _, rfl, rfl, by decide⟩
  | object members => exact ⟨_, _, rfl, rfl, by decide⟩
  | number text =>
    obtain ⟨c, tail, htext⟩ := exists_cons_of_ne_nil h.1
    have hdigit := h.2 c (htext ▸ mem_cons_self)
    refine ⟨c, tail, htext, shapeOf_digit hdigit, ?_⟩
    rintro rfl
    exact absurd hdigit (by decide)

variable {rest rest' : List Char}

theorem shape_eq {value value' : JsonValue} (hplain : value.Plain) (hplain' : value'.Plain)
    (h : value.text ++ rest = value'.text ++ rest') :
    value.shape = value'.shape := by
  obtain ⟨c, tail, htext, hshape, -⟩ := exists_text_eq_cons hplain
  obtain ⟨c', tail', htext', hshape', -⟩ := exists_text_eq_cons hplain'
  rw [htext, htext', cons_append, cons_append] at h
  rw [← hshape, ← hshape', (List.cons.inj h).1]

/-! ## Texts -/

theorem quoted_inj {s s' : String} (h : quoted s ++ rest = quoted s' ++ rest') :
    s = s' ∧ rest = rest' := by
  rw [quoted, quoted, cons_append, cons_append] at h
  have hread := readString_quotedTail s.toList rest
  rw [(List.cons.inj h).2, readString_quotedTail] at hread
  obtain ⟨hs, hrest⟩ := Prod.mk.inj (Option.some.inj hread)
  exact ⟨String.toList_inj.mp hs.symm, hrest.symm⟩

theorem numeral_inj {text text' : String} (htext : Numeral text) (htext' : Numeral text')
    (hrest : Stops rest) (hrest' : Stops rest') (h : text.toList ++ rest = text'.toList ++ rest') :
    text = text' ∧ rest = rest' := by
  obtain ⟨htake, hdrop⟩ := takeWhile_digits htext.2 hrest
  obtain ⟨htake', hdrop'⟩ := takeWhile_digits htext'.2 hrest'
  rw [h] at htake hdrop
  exact ⟨String.toList_inj.mp (htake.symm.trans htake'), hdrop.symm.trans hdrop'⟩

theorem stops_cons {c : Char} {rest : List Char} (h : c.isDigit = false) : Stops (c :: rest) := by
  intro d text heq
  rw [← (List.cons.inj heq).1]
  exact h

/-- What an item of an array is followed by. -/
def itemsRest : List JsonValue → List Char
  | [] => []
  | item :: items => ',' :: itemsText (item :: items)

theorem itemsText_cons (item : JsonValue) (items : List JsonValue) :
    itemsText (item :: items) = item.text ++ itemsRest items := by
  cases items with
  | nil => rw [itemsText, itemsRest, append_nil]
  | cons next items => rw [itemsText, itemsRest]

/-- What a member of an object is followed by. -/
def membersRest : List (String × JsonValue) → List Char
  | [] => []
  | member :: members => ',' :: valuesText (member :: members)

theorem valuesText_cons (member : String × JsonValue) (members : List (String × JsonValue)) :
    valuesText (member :: members) =
      quoted member.1 ++ ':' :: (member.2.text ++ membersRest members) := by
  cases members with
  | nil => rw [valuesText, membersRest, append_nil]
  | cons next members => rw [valuesText, membersRest]

theorem itemsText_of_rest {items items' : List JsonValue}
    (h : itemsRest items ++ ']' :: rest = itemsRest items' ++ ']' :: rest') :
    itemsText items ++ ']' :: rest = itemsText items' ++ ']' :: rest' := by
  cases items with
  | nil =>
    cases items' with
    | nil => exact h
    | cons item' items' => exact absurd (List.cons.inj h).1 (by decide)
  | cons item items =>
    cases items' with
    | nil => exact absurd (List.cons.inj h).1 (by decide)
    | cons item' items' => exact (List.cons.inj h).2

variable {members members' : List (String × JsonValue)}

theorem valuesText_of_rest
    (h : membersRest members ++ '\x7d' :: rest = membersRest members' ++ '\x7d' :: rest') :
    valuesText members ++ '\x7d' :: rest = valuesText members' ++ '\x7d' :: rest' := by
  cases members with
  | nil =>
    cases members' with
    | nil => exact h
    | cons member' members' => exact absurd (List.cons.inj h).1 (by decide)
  | cons member members =>
    cases members' with
    | nil => exact absurd (List.cons.inj h).1 (by decide)
    | cons member' members' => exact (List.cons.inj h).2

theorem stops_itemsRest (items : List JsonValue) (rest : List Char) :
    Stops (itemsRest items ++ ']' :: rest) := by
  cases items with
  | nil => exact stops_cons rfl
  | cons item items => exact stops_cons rfl

theorem stops_membersRest (members : List (String × JsonValue)) (rest : List Char) :
    Stops (membersRest members ++ '\x7d' :: rest) := by
  cases members with
  | nil => exact stops_cons rfl
  | cons member members => exact stops_cons rfl

/-- An item does not begin as the end of an array. -/
theorem text_ne_close {item : JsonValue} {more rest : List Char} (h : item.Plain) :
    item.text ++ more ≠ ']' :: rest := by
  obtain ⟨c, tail, htext, -, hne⟩ := exists_text_eq_cons h
  rw [htext, cons_append]
  intro heq
  exact hne (List.cons.inj heq).1

mutual

/-- A value and what follows it are read off the text. -/
theorem text_inj : ∀ {value value' : JsonValue} {rest rest' : List Char}, value.Plain →
    value'.Plain → Stops rest → Stops rest' → value.text ++ rest = value'.text ++ rest' →
    value = value' ∧ rest = rest'
  | .null, value', rest, rest', hplain, hplain', _, _, h => by
    have hshape := shape_eq hplain hplain' h
    cases value' with
    | null => exact ⟨rfl, append_cancel_left h⟩
    | bool b => cases b <;> cases hshape
    | _ => cases hshape
  | .bool b, value', rest, rest', hplain, hplain', _, _, h => by
    have hshape := shape_eq hplain hplain' h
    cases value' with
    | bool b' =>
      cases b <;> cases b'
      · exact ⟨rfl, append_cancel_left h⟩
      · cases hshape
      · cases hshape
      · exact ⟨rfl, append_cancel_left h⟩
    | _ => cases b <;> cases hshape
  | .number text, value', rest, rest', hplain, hplain', hrest, hrest', h => by
    have hshape := shape_eq hplain hplain' h
    cases value' with
    | number text' =>
      obtain ⟨rfl, hrests⟩ := numeral_inj hplain hplain' hrest hrest' h
      exact ⟨rfl, hrests⟩
    | bool b => cases b <;> cases hshape
    | _ => cases hshape
  | .string s, value', rest, rest', hplain, hplain', _, _, h => by
    have hshape := shape_eq hplain hplain' h
    cases value' with
    | string s' =>
      obtain ⟨rfl, hrests⟩ := quoted_inj h
      exact ⟨rfl, hrests⟩
    | bool b => cases b <;> cases hshape
    | _ => cases hshape
  | .array items, value', rest, rest', hplain, hplain', _, _, h => by
    have hshape := shape_eq hplain hplain' h
    cases value' with
    | array items' =>
      simp only [JsonValue.text, cons_append, append_assoc, nil_append] at h
      obtain ⟨rfl, hrests⟩ := itemsText_inj hplain hplain' (List.cons.inj h).2
      exact ⟨rfl, hrests⟩
    | bool b => cases b <;> cases hshape
    | _ => cases hshape
  | .object members, value', rest, rest', hplain, hplain', _, _, h => by
    have hshape := shape_eq hplain hplain' h
    cases value' with
    | object members' =>
      simp only [JsonValue.text, cons_append, append_assoc, nil_append] at h
      obtain ⟨rfl, hrests⟩ := valuesText_inj hplain hplain' (List.cons.inj h).2
      exact ⟨rfl, hrests⟩
    | bool b => cases b <;> cases hshape
    | _ => cases hshape

theorem itemsText_inj : ∀ {items items' : List JsonValue} {rest rest' : List Char},
    PlainItems items → PlainItems items' →
    itemsText items ++ ']' :: rest = itemsText items' ++ ']' :: rest' →
    items = items' ∧ rest = rest'
  | [], [], rest, rest', _, _, h => ⟨rfl, (List.cons.inj h).2⟩
  | [], item' :: items', rest, rest', _, hplain', h => by
    rw [itemsText_cons, List.append_assoc] at h
    exact absurd h.symm (text_ne_close hplain'.1)
  | item :: items, [], rest, rest', hplain, _, h => by
    rw [itemsText_cons, List.append_assoc] at h
    exact absurd h (text_ne_close hplain.1)
  | item :: items, item' :: items', rest, rest', hplain, hplain', h => by
    rw [itemsText_cons, itemsText_cons, List.append_assoc, List.append_assoc] at h
    obtain ⟨rfl, hmore⟩ := text_inj hplain.1 hplain'.1 (stops_itemsRest items rest)
      (stops_itemsRest items' rest') h
    obtain ⟨rfl, hrests⟩ := itemsText_inj hplain.2 hplain'.2 (itemsText_of_rest hmore)
    exact ⟨rfl, hrests⟩

theorem valuesText_inj :
    ∀ {members members' : List (String × JsonValue)} {rest rest' : List Char},
    PlainMembers members → PlainMembers members' →
    valuesText members ++ '\x7d' :: rest = valuesText members' ++ '\x7d' :: rest' →
    members = members' ∧ rest = rest'
  | [], [], rest, rest', _, _, h => ⟨rfl, (List.cons.inj h).2⟩
  | [], member' :: members', rest, rest', _, _, h => by
    rw [valuesText_cons, List.append_assoc] at h
    exact absurd (List.cons.inj h).1 (by decide)
  | member :: members, [], rest, rest', _, _, h => by
    rw [valuesText_cons, List.append_assoc] at h
    exact absurd (List.cons.inj h).1 (by decide)
  | (key, value) :: members, (key', value') :: members', rest, rest', hplain, hplain', h => by
    rw [valuesText_cons, valuesText_cons, List.append_assoc, List.append_assoc] at h
    obtain ⟨rfl, hvalue⟩ := quoted_inj h
    rw [cons_append, cons_append, append_assoc, append_assoc] at hvalue
    have htail := (List.cons.inj hvalue).2
    obtain ⟨rfl, hmore⟩ := text_inj hplain.1 hplain'.1 (stops_membersRest members rest)
      (stops_membersRest members' rest') htail
    obtain ⟨rfl, hrests⟩ := valuesText_inj hplain.2 hplain'.2 (valuesText_of_rest hmore)
    exact ⟨rfl, hrests⟩

end

/-- **One value a text.** -/
theorem eq_of_text_eq {value value' : JsonValue} (hplain : value.Plain) (hplain' : value'.Plain)
    (h : value.text = value'.text) : value = value' := by
  have hstops : Stops [] := by
    intro c text heq
    cases heq
  refine (text_inj hplain hplain' hstops hstops ?_).1
  rw [h]

/-! ## Canonical objects -/

theorem canonicalMembers_eq_map (members : List (String × JsonValue)) :
    canonicalMembers members = members.map fun member => (member.1, canonicalValue member.2) := by
  induction members with
  | nil => rfl
  | cons member members ih =>
    rw [map_cons, ← ih]
    rfl

theorem keys_canonicalMembers (members : List (String × JsonValue)) :
    (canonicalMembers members).map Prod.fst = members.map Prod.fst := by
  rw [canonicalMembers_eq_map, map_map]
  rfl

/-- Objects with one canonical form hold the same under each key. -/
theorem lookup_canonical (hkeys : (members.map Prod.fst).Nodup)
    (hkeys' : (members'.map Prod.fst).Nodup)
    (h : canonicalValue (.object members) = canonicalValue (.object members')) (key : String) :
    (canonicalMembers members).lookup key = (canonicalMembers members').lookup key := by
  have hentries := JsonValue.object.inj h
  have hmap := ext_entries hentries
  rw [← get_ofList (by rw [keys_canonicalMembers]; exact hkeys),
    ← get_ofList (by rw [keys_canonicalMembers]; exact hkeys'), hmap]

theorem plainMembers_iff {members : List (String × JsonValue)} :
    PlainMembers members ↔ ∀ member ∈ members, member.2.Plain := by
  induction members with
  | nil => simp [PlainMembers]
  | cons member members ih => simp [PlainMembers, ih]

/-- The canonical form of an object has the numbers of the object. -/
theorem plain_canonicalObject {members : List (String × JsonValue)}
    (h : ∀ member ∈ members, (canonicalValue member.2).Plain) :
    (canonicalValue (.object members)).Plain := by
  refine plainMembers_iff.mpr ?_
  rintro ⟨key, value⟩ hmem
  have hmem' := mem_of_get_ofList (OrderedMap.mem_entries.mp hmem)
  rw [canonicalMembers_eq_map, mem_map] at hmem'
  obtain ⟨member, hmember, heq⟩ := hmem'
  rw [← (Prod.mk.inj heq).2]
  exact h member hmember

/-- Objects of one canonical text hold the same under each key. -/
theorem lookup_of_text_eq (hkeys : (members.map Prod.fst).Nodup)
    (hkeys' : (members'.map Prod.fst).Nodup)
    (hplain : ∀ member ∈ members, (canonicalValue member.2).Plain)
    (hplain' : ∀ member ∈ members', (canonicalValue member.2).Plain)
    (h : (canonicalValue (.object members)).text = (canonicalValue (.object members')).text)
    (key : String) :
    (canonicalMembers members).lookup key = (canonicalMembers members').lookup key :=
  lookup_canonical hkeys hkeys'
    (eq_of_text_eq (plain_canonicalObject hplain) (plain_canonicalObject hplain') h) key

end Localview
