import PathFilter.Proofs.JsonLine
import Mathlib.Data.List.TakeWhile

namespace PathFilter

namespace Json

/-- White space between the parts of a text in JSON. -/
def isSpace (c : Char) : Bool := c == ' ' || c == '\n' || c == '\r' || c == '\t'

def skip (t : List Char) : List Char := t.dropWhile isSpace

/-- The character that a letter after a backslash names. -/
def named? (c : Char) : Option Char :=
  if c = '"' ∨ c = '\\' ∨ c = '/' then some c
  else if c = 'n' then some '\n'
  else if c = 'r' then some '\r'
  else if c = 't' then some '\t'
  else if c = 'b' then some '\x08'
  else if c = 'f' then some '\x0c'
  else none

def hexValue? (c : Char) : Option Nat :=
  if '0' ≤ c ∧ c ≤ '9' then some (c.toNat - 48)
  else if 'a' ≤ c ∧ c ≤ 'f' then some (c.toNat - 87)
  else if 'A' ≤ c ∧ c ≤ 'F' then some (c.toNat - 55)
  else none

/-- The character with a number in hexadecimal digits. -/
def numbered? (digits : List Char) : Option Char := do
  let n ← digits.foldlM (fun n c => (hexValue? c).map (16 * n + ·)) 0
  if n.isValidChar then some (Char.ofNat n) else none

/-- Reads the characters of a text up to the quote that ends it. -/
def readText : List Char → Option (List Char × List Char)
  | [] => none
  | '"' :: t => some ([], t)
  | '\\' :: 'u' :: a :: b :: c :: d :: t => do
    let c ← numbered? [a, b, c, d]
    (readText t).map fun found => (c :: found.1, found.2)
  | '\\' :: c :: t => do
    let c ← named? c
    (readText t).map fun found => (c :: found.1, found.2)
  | c :: t => if c.toNat < 0x20 then none else (readText t).map fun found => (c :: found.1, found.2)

/-- Reads a number without a sign. Only the number zero begins with a zero. -/
def readNumber (t : List Char) : Option (Nat × List Char) :=
  match t.takeWhile Char.isDigit with
  | [] => none
  | '0' :: _ :: _ => none
  | digits => some (Nat.ofDigitChars 10 digits 0, t.dropWhile Char.isDigit)

/-- Reads a value without parts. -/
def readAtom : List Char → Option (Value × List Char)
  | 'n' :: 'u' :: 'l' :: 'l' :: t => some (.null, t)
  | 't' :: 'r' :: 'u' :: 'e' :: t => some (.bool true, t)
  | 'f' :: 'a' :: 'l' :: 's' :: 'e' :: t => some (.bool false, t)
  | '-' :: t => (readNumber t).map fun found => (.int (-found.1), found.2)
  | t => (readNumber t).map fun found => (.int found.1, found.2)

mutual

/-- Reads a value. Each level of a value takes a character, so the length of the text is enough of a
budget. -/
def readValue : Nat → List Char → Option (Value × List Char)
  | 0, _ => none
  | budget + 1, t =>
    match skip t with
    | '"' :: t => (readText t).map fun found => (.text (String.ofList found.1), found.2)
    | '[' :: t =>
      match skip t with
      | ']' :: t => some (.list [], t)
      | t => (readItems budget t).map fun found => (.list found.1, found.2)
    | '\x7b' :: t =>
      match skip t with
      | '\x7d' :: t => some (.fields [], t)
      | t => (readEntries budget t).map fun found => (.fields found.1, found.2)
    | t => readAtom t

/-- Reads the rest of a list, which has an item at least. -/
def readItems : Nat → List Char → Option (List Value × List Char)
  | 0, _ => none
  | budget + 1, t => do
    let (v, t) ← readValue budget t
    match skip t with
    | ',' :: t => (readItems budget (skip t)).map fun found => (v :: found.1, found.2)
    | ']' :: t => some ([v], t)
    | _ => none

/-- Reads the rest of a set of fields, which has a field at least. -/
def readEntries : Nat → List Char → Option (List (String × Value) × List Char)
  | 0, _ => none
  | budget + 1, t =>
    match t with
    | '"' :: t => do
      let (name, t) ← readText t
      match skip t with
      | ':' :: t => do
        let (v, t) ← readValue budget t
        let entry := (String.ofList name, v)
        match skip t with
        | ',' :: t => (readEntries budget (skip t)).map fun found => (entry :: found.1, found.2)
        | '\x7d' :: t => some ([entry], t)
        | _ => none
      | _ => none
    | _ => none

end

/-- The value that a text is, if it is one in JSON. Of numbers it takes whole ones. -/
def read? (s : String) : Option Value :=
  match readValue (s.toList.length + 1) s.toList with
  | some (v, rest) => if skip rest = [] then some v else none
  | none => none

section

variable {t rest : List Char}

theorem skip_cons {c : Char} (h : isSpace c = false) (t : List Char) : skip (c :: t) = c :: t :=
  List.dropWhile_cons_of_neg (by simp [h])

theorem skip_blank (t : List Char) : skip (' ' :: t) = skip t :=
  List.dropWhile_cons_of_pos rfl

/-- Reading a character as it is written gives it back. -/
theorem readText_encodeChar (c : Char) (t : List Char) :
    readText (encodeChar c ++ t) = (readText t).map fun found => (c :: found.1, found.2) := by
  unfold encodeChar
  split_ifs with hquote hfeed hreturn htab hback hform hcontrol
  · obtain rfl | rfl := hquote <;> simp [readText, named?]
  · simp [hfeed, readText, named?]
  · simp [hreturn, readText, named?]
  · simp [htab, readText, named?]
  · simp [hback, readText, named?]
  · simp [hform, readText, named?]
  · have hnumber : ∀ n < 0x20, numbered? (Quoted.hex 4 n) = some (Char.ofNat n) := by decide
    have hdigits := hnumber c.toNat hcontrol
    rw [Char.ofNat_toNat] at hdigits
    simp only [Quoted.hex, List.nil_append, List.cons_append] at hdigits ⊢
    simp [readText, hdigits]
  · obtain ⟨hend, hescape⟩ := not_or.mp hquote
    rw [List.singleton_append, readText.eq_5 c t hend (fun _ _ _ _ _ he _ => hescape he)
      fun _ _ he _ => hescape he, if_neg hcontrol]

theorem readText_flatMap (s rest : List Char) :
    readText (s.flatMap encodeChar ++ '"' :: rest) = some (s, rest) := by
  induction s with
  | nil => rfl
  | cons c s ih =>
    rw [List.flatMap_cons, List.append_assoc, readText_encodeChar, ih, Option.map_some]

theorem toList_quote (s : String) (rest : List Char) :
    (quote s).toList ++ rest = '"' :: (s.toList.flatMap encodeChar ++ '"' :: rest) := by
  simp [quote]

end

/-- What follows a number is no digit. -/
def Ends (rest : List Char) : Prop := ∀ c, rest.head? = some c → c.isDigit = false

theorem ends_cons {c : Char} (h : c.isDigit = false) (rest : List Char) : Ends (c :: rest) := by
  rintro d hd
  obtain rfl := Option.some.inj hd
  exact h

theorem head?_toDigits {n : Nat} (h : 0 < n) : (Nat.toDigits 10 n).head? ≠ some '0' := by
  induction n using Nat.strong_induction_on with
  | _ n ih =>
    by_cases hsmall : n < 10
    · have hdigit : ∀ m < 10, 0 < m → (Nat.toDigits 10 m).head? ≠ some '0' := by decide
      exact hdigit n hsmall h
    · have hfirst := ih (n / 10) (by omega) (by omega)
      rw [Nat.toDigits_of_base_le (by decide) (by omega), List.head?_append]
      cases hhead : (Nat.toDigits 10 (n / 10)).head? with
      | none => exact absurd (List.head?_eq_none_iff.mp hhead) Nat.toDigits_ne_nil
      | some c => rwa [hhead] at hfirst

theorem readNumber_toDigits (n : Nat) {rest : List Char} (ends : Ends rest) :
    readNumber (Nat.toDigits 10 n ++ rest) = some (n, rest) := by
  have hdigits : ∀ c ∈ Nat.toDigits 10 n, c.isDigit = true := fun c hc =>
    Nat.isDigit_of_mem_toDigits (by decide) (by decide) hc
  have htake : (Nat.toDigits 10 n ++ rest).takeWhile Char.isDigit = Nat.toDigits 10 n := by
    rw [List.takeWhile_append_of_pos hdigits]
    cases rest with
    | nil => simp
    | cons c rest => simp [ends c rfl]
  have hdrop : (Nat.toDigits 10 n ++ rest).dropWhile Char.isDigit = rest := by
    rw [List.dropWhile_append_of_pos hdigits]
    cases rest with
    | nil => rfl
    | cons c rest => simp [ends c rfl]
  unfold readNumber
  rw [htake, hdrop]
  split
  next hnil => exact absurd hnil Nat.toDigits_ne_nil
  next _ _ hzero =>
    cases n with
    | zero => cases hzero
    | succ n => exact absurd (by rw [hzero]; rfl) (head?_toDigits n.succ_pos)
  next => rw [Nat.ofDigitChars_ten_toDigits]

theorem exists_toDigits_cons (n : Nat) :
    ∃ c t, Nat.toDigits 10 n = c :: t ∧ c.isDigit = true := by
  obtain ⟨c, t, hdigits⟩ := List.exists_cons_of_ne_nil (@Nat.toDigits_ne_nil n 10)
  have hmem : c ∈ Nat.toDigits 10 n := by simp [hdigits]
  exact ⟨c, t, hdigits, Nat.isDigit_of_mem_toDigits (by decide) (by decide) hmem⟩

theorem ne_of_isDigit {c d : Char} (hc : c.isDigit = true) (hd : d.isDigit = false) : c ≠ d := by
  rintro rfl
  rw [hc] at hd
  cases hd

theorem toList_toString_ofNat (n : Nat) : (toString (Int.ofNat n)).toList = Nat.toDigits 10 n :=
  Nat.toList_repr

theorem toList_toString_negSucc (n : Nat) :
    (toString (Int.negSucc n)).toList = '-' :: Nat.toDigits 10 (n + 1) := by
  change ("-" ++ (n + 1).repr).toList = _
  rw [String.toList_append, Nat.toList_repr]
  rfl

theorem readAtom_of_isDigit {c : Char} (hc : c.isDigit = true) (t : List Char) :
    readAtom (c :: t) = (readNumber (c :: t)).map fun found => (.int found.1, found.2) :=
  readAtom.eq_5 _ (fun _ h => ne_of_isDigit hc rfl (List.cons.inj h).1)
    (fun _ h => ne_of_isDigit hc rfl (List.cons.inj h).1)
    (fun _ h => ne_of_isDigit hc rfl (List.cons.inj h).1)
    fun _ h => ne_of_isDigit hc rfl (List.cons.inj h).1

theorem readAtom_toString (n : Int) {rest : List Char} (ends : Ends rest) :
    readAtom ((toString n).toList ++ rest) = some (.int n, rest) := by
  cases n with
  | ofNat n =>
    obtain ⟨c, t, hdigits, hc⟩ := exists_toDigits_cons n
    have hnumber := readNumber_toDigits n ends
    rw [hdigits, List.cons_append] at hnumber
    rw [toList_toString_ofNat, hdigits, List.cons_append, readAtom_of_isDigit hc, hnumber]
    rfl
  | negSucc n =>
    rw [toList_toString_negSucc, List.cons_append, readAtom, readNumber_toDigits (n + 1) ends]
    rfl

/-- A value can begin with the character, and nothing else can. -/
def Starts (c : Char) : Prop := isSpace c = false ∧ c ≠ ']'

instance (c : Char) : Decidable (Starts c) := inferInstanceAs (Decidable (_ ∧ _))

theorem starts_of_isDigit {c : Char} (hc : c.isDigit = true) : Starts c := by
  have hne : ∀ {d : Char}, d.isDigit = false → c ≠ d := fun hd => ne_of_isDigit hc hd
  have hspace : isSpace c = false := by
    simp [isSpace, hne (rfl : ' '.isDigit = false), hne (rfl : '\n'.isDigit = false),
      hne (rfl : '\r'.isDigit = false), hne (rfl : '\t'.isDigit = false)]
  exact ⟨hspace, hne rfl⟩

theorem exists_toString_cons (n : Int) : ∃ c t, (toString n).toList = c :: t ∧ Starts c ∧
    c ≠ '"' ∧ c ≠ '[' ∧ c ≠ '\x7b' := by
  cases n with
  | ofNat n =>
    obtain ⟨c, t, hdigits, hc⟩ := exists_toDigits_cons n
    exact ⟨c, t, (toList_toString_ofNat n).trans hdigits, starts_of_isDigit hc,
      ne_of_isDigit hc rfl, ne_of_isDigit hc rfl, ne_of_isDigit hc rfl⟩
  | negSucc n =>
    exact ⟨'-', _, toList_toString_negSucc n, by decide, by decide, by decide, by decide⟩

/-- Parts as they stand between brackets. -/
def joined (parts : List String) : List Char := (", ".intercalate parts).toList

theorem joined_singleton (part : String) : joined [part] = part.toList := by
  simp [joined]

theorem joined_cons_cons (part next : String) (parts : List String) :
    joined (part :: next :: parts) = part.toList ++ ',' :: ' ' :: joined (next :: parts) := by
  simp [joined]

theorem toList_line_list (items : List Value) :
    (line (.list items)).toList = '[' :: (joined (items.map line) ++ [']']) := by
  simp [line, joined, lineItems_eq_map]

theorem toList_line_fields (entries : List (String × Value)) :
    (line (.fields entries)).toList = '\x7b' :: (joined (entries.map lineEntry) ++ ['\x7d']) := by
  simp [line, joined, lineEntries_eq_map]

/-- A field as it is written. -/
theorem toList_lineEntry (entry : String × Value) : (lineEntry entry).toList =
    '"' :: (entry.1.toList.flatMap encodeChar ++ '"' :: ':' :: ' ' :: (line entry.2).toList) := by
  simp [lineEntry, quote]

/-- What stands between brackets begins as its first part does. -/
theorem exists_joined_cons {part : String} {c : Char} {t : List Char} (h : part.toList = c :: t)
    (parts : List String) : ∃ u, joined (part :: parts) = c :: u := by
  cases parts with
  | nil => exact ⟨t, by rw [joined_singleton, h]⟩
  | cons next parts => exact ⟨_, by rw [joined_cons_cons, h, List.cons_append]⟩

theorem exists_line_cons {v : Value} (data : v.IsData) :
    ∃ c t, (line v).toList = c :: t ∧ Starts c := by
  cases data with
  | null => exact ⟨'n', _, rfl, by decide⟩
  | bool b =>
    cases b with
    | true => exact ⟨'t', _, rfl, by decide⟩
    | false => exact ⟨'f', _, rfl, by decide⟩
  | int n =>
    obtain ⟨c, t, htext, starts, -⟩ := exists_toString_cons n
    exact ⟨c, t, htext, starts⟩
  | text s => exact ⟨'"', _, (List.append_nil _).symm.trans (toList_quote s []), by decide⟩
  | @list items => exact ⟨'[', _, toList_line_list items, by decide⟩
  | @fields entries => exact ⟨'\x7b', _, toList_line_fields entries, by decide⟩

/-- What has no quote and no bracket in front is read as a value without parts. -/
theorem readValue_of_atom {c : Char} (starts : Starts c) (quote : c ≠ '"') (list : c ≠ '[')
    (fields : c ≠ '\x7b') (budget : Nat) (t : List Char) :
    readValue (budget + 1) (c :: t) = readAtom (c :: t) := by
  rw [readValue, skip_cons starts.1]
  split <;> simp_all

section

variable {budget : Nat} {c : Char} {t u rest : List Char} {v : Value} {items : List Value}
  {entries : List (String × Value)} {name : String}

theorem readValue_items (starts : Starts c) (h : readItems budget (c :: t) = some (items, rest)) :
    readValue (budget + 1) ('[' :: c :: t) = some (.list items, rest) := by
  rw [readValue, skip_cons rfl]
  simp only [skip_cons starts.1]
  split
  next hlist => exact absurd (List.cons.inj hlist).1 starts.2
  next => rw [h, Option.map_some]

theorem readValue_entries (h : readEntries budget ('"' :: t) = some (entries, rest)) :
    readValue (budget + 1) ('\x7b' :: '"' :: t) = some (.fields entries, rest) := by
  rw [readValue, skip_cons rfl]
  simp [skip_cons (rfl : isSpace '"' = false), h]

theorem readItems_last (h : readValue budget (t ++ ']' :: rest) = some (v, ']' :: rest)) :
    readItems (budget + 1) (t ++ ']' :: rest) = some ([v], rest) := by
  rw [readItems, h, Option.bind_eq_bind, Option.bind_some]
  simp only [skip_cons (rfl : isSpace ']' = false)]

theorem readItems_more
    (h : readValue budget (t ++ ',' :: ' ' :: c :: u) = some (v, ',' :: ' ' :: c :: u))
    (starts : Starts c) (hitems : readItems budget (c :: u) = some (items, rest)) :
    readItems (budget + 1) (t ++ ',' :: ' ' :: c :: u) = some (v :: items, rest) := by
  rw [readItems, h, Option.bind_eq_bind, Option.bind_some]
  simp only [skip_cons (rfl : isSpace ',' = false), skip_blank, skip_cons starts.1, hitems,
    Option.map_some]

theorem readEntries_value (h : readValue budget (' ' :: t) = some (v, u)) :
    readEntries (budget + 1) ('"' :: (name.toList.flatMap encodeChar ++ '"' :: ':' :: ' ' :: t)) =
      match skip u with
      | ',' :: t =>
        (readEntries budget (skip t)).map fun found => ((name, v) :: found.1, found.2)
      | '\x7d' :: t => some ([(name, v)], t)
      | _ => none := by
  rw [readEntries]
  simp only [readText_flatMap, Option.bind_eq_bind, Option.bind_some,
    skip_cons (rfl : isSpace ':' = false), h, String.ofList_toList]

end

theorem readValue_blank (budget : Nat) (t : List Char) :
    readValue budget (' ' :: t) = readValue budget t := by
  cases budget with
  | zero => rfl
  | succ budget => rw [readValue, readValue, skip_blank]

/-- Whatever is behind it, reading the value as it is written gives it back. -/
def ReadsBack (v : Value) : Prop :=
  ∀ budget rest, (line v).toList.length < budget → Ends rest →
    readValue budget ((line v).toList ++ rest) = some (v, rest)

theorem exists_succ {n budget : Nat} (h : n < budget) : ∃ b, budget = b + 1 :=
  Nat.exists_eq_succ_of_ne_zero (Nat.ne_zero_of_lt h)

theorem readItems_joined {v : Value} {items : List Value} (data : ∀ w ∈ v :: items, w.IsData)
    (back : ∀ w ∈ v :: items, ReadsBack w) (budget : Nat) (rest : List Char)
    (enough : (joined ((v :: items).map line)).length + 1 < budget) :
    readItems budget (joined ((v :: items).map line) ++ ']' :: rest) = some (v :: items, rest) := by
  induction items generalizing v budget with
  | nil =>
    obtain ⟨budget, rfl⟩ := exists_succ enough
    rw [List.map_singleton, joined_singleton] at enough ⊢
    exact readItems_last (back v (by simp) budget _ (by omega) (ends_cons rfl rest))
  | cons w items ih =>
    obtain ⟨budget, rfl⟩ := exists_succ enough
    obtain ⟨hv, hback⟩ := List.forall_mem_cons.mp back
    obtain ⟨-, hdata⟩ := List.forall_mem_cons.mp data
    obtain ⟨c, _, hline, starts⟩ := exists_line_cons (hdata w (by simp))
    obtain ⟨t, hjoined⟩ := exists_joined_cons hline (items.map line)
    rw [List.map_cons, List.map_cons, joined_cons_cons, ← List.map_cons] at enough ⊢
    rw [List.length_append, List.length_cons, List.length_cons] at enough
    have hrest := ih hdata hback budget (by omega)
    rw [List.append_assoc, List.cons_append, List.cons_append]
    rw [List.map_cons, hjoined, List.cons_append] at hrest ⊢
    exact readItems_more (hv budget _ (by omega) (ends_cons rfl _)) starts hrest

theorem readEntries_joined {entry : String × Value} {entries : List (String × Value)}
    (back : ∀ e ∈ entry :: entries, ReadsBack e.2) (budget : Nat) (rest : List Char)
    (enough : (joined ((entry :: entries).map lineEntry)).length + 1 < budget) :
    readEntries budget (joined ((entry :: entries).map lineEntry) ++ '\x7d' :: rest) =
      some (entry :: entries, rest) := by
  induction entries generalizing entry budget with
  | nil =>
    obtain ⟨budget, rfl⟩ := exists_succ enough
    rw [List.map_singleton, joined_singleton, toList_lineEntry] at enough ⊢
    simp only [List.length_cons, List.length_append] at enough
    have hread := back entry (by simp) budget ('\x7d' :: rest) (by omega) (ends_cons rfl rest)
    rw [← readValue_blank] at hread
    simp only [List.cons_append, List.append_assoc]
    rw [readEntries_value hread, skip_cons rfl]
    rfl
  | cons next entries ih =>
    obtain ⟨budget, rfl⟩ := exists_succ enough
    obtain ⟨hentry, hback⟩ := List.forall_mem_cons.mp back
    obtain ⟨t, hjoined⟩ := exists_joined_cons (toList_lineEntry next) (entries.map lineEntry)
    rw [List.map_cons, List.map_cons, joined_cons_cons, ← List.map_cons, toList_lineEntry]
      at enough ⊢
    simp only [List.length_cons, List.length_append] at enough
    have hrest := ih hback budget (by omega)
    have hread := hentry budget (',' :: ' ' :: (joined ((next :: entries).map lineEntry) ++
      '\x7d' :: rest)) (by omega) (ends_cons rfl _)
    rw [← readValue_blank] at hread
    simp only [List.cons_append, List.append_assoc]
    rw [readEntries_value hread, skip_cons rfl]
    rw [List.map_cons, hjoined, List.cons_append] at hrest ⊢
    simp only [skip_blank, skip_cons (rfl : isSpace '"' = false), hrest, Option.map_some]

theorem readsBack {v : Value} (data : v.IsData) : ReadsBack v := by
  induction data with
  | null =>
    intro budget rest enough _
    obtain ⟨budget, rfl⟩ := exists_succ enough
    rfl
  | bool b =>
    intro budget rest enough _
    obtain ⟨budget, rfl⟩ := exists_succ enough
    cases b <;> rfl
  | int n =>
    intro budget rest enough ends
    obtain ⟨budget, rfl⟩ := exists_succ enough
    obtain ⟨c, t, htext, starts, quote, list, fields⟩ := exists_toString_cons n
    have hatom := readAtom_toString n ends
    rw [htext, List.cons_append] at hatom
    rw [line, htext, List.cons_append, readValue_of_atom starts quote list fields, hatom]
  | text s =>
    intro budget rest enough _
    obtain ⟨budget, rfl⟩ := exists_succ enough
    rw [line, toList_quote, readValue, skip_cons rfl]
    simp [readText_flatMap]
  | @list items data back =>
    intro budget rest enough _
    obtain ⟨budget, rfl⟩ := exists_succ enough
    cases items with
    | nil => rfl
    | cons v items =>
      obtain ⟨c, _, hline, starts⟩ := exists_line_cons (data v (by simp))
      obtain ⟨t, hjoined⟩ := exists_joined_cons hline (items.map line)
      rw [toList_line_list, List.length_cons, List.length_append, List.length_singleton] at enough
      have hitems := readItems_joined data back budget rest (by omega)
      rw [toList_line_list, List.cons_append, List.append_assoc, List.singleton_append]
      rw [List.map_cons, hjoined, List.cons_append] at hitems ⊢
      exact readValue_items starts hitems
  | @fields entries _ back =>
    intro budget rest enough _
    obtain ⟨budget, rfl⟩ := exists_succ enough
    cases entries with
    | nil => rfl
    | cons entry entries =>
      obtain ⟨t, hjoined⟩ := exists_joined_cons (toList_lineEntry entry) (entries.map lineEntry)
      rw [toList_line_fields, List.length_cons, List.length_append, List.length_singleton] at enough
      have hentries := readEntries_joined back budget rest (by omega)
      rw [toList_line_fields, List.cons_append, List.append_assoc, List.singleton_append]
      rw [List.map_cons, hjoined, List.cons_append] at hentries ⊢
      exact readValue_entries hentries

/-- What is written on a line is read back as it was. -/
theorem read?_line {v : Value} (data : v.IsData) : read? (line v) = some v := by
  have hread := readsBack data ((line v).toList.length + 1) [] (Nat.lt_succ_self _) nofun
  rw [List.append_nil] at hread
  rw [read?, hread]
  rfl

end Json

end PathFilter
