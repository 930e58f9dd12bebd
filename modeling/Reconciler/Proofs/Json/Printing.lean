import Mathlib.Data.List.Basic
import Mathlib.Data.List.TakeDrop
import Reconciler.Json.Printer
import Reconciler.Json.Reader

/-!
# Reading what was written

The text of a tree is read as the tree: every reader finds in it what it finds in the undamaged
document of the tree (`Reader.run?_render`). This holds of trees without floats whose integers are
within the bounds of the parser (`Parser.Plain`); an integer beyond them is read as a float.

The parser hands back what is left of a text, so what it makes of a part of a text is stated with
whatever follows. A string is over at its closing quote and a container at its bracket, but a number
goes on as long as what follows could belong to it (`Parser.EndsNumber`). The descent spends at most
three units of fuel on every character (`Parser.value_chars`).
-/

namespace Reconciler.Json

namespace Parser

/-! ## Strings -/

/-- The piece as which an escaped character is read. -/
def pieceOf (c : Char) : Piece :=
  if c.toNat < 0x20 ∧ ¬(c = '\x08' ∨ c = '\x0c' ∨ c = '\n' ∨ c = '\r' ∨ c = '\t') then .unit c.toNat
  else .char c

theorem unit?_hexDigit : ∀ n < 0x20,
    unit? '0' '0' (Printer.hexDigit (n / 16)) (Printer.hexDigit (n % 16)) = some n := by
  decide

theorem pieces_escape (c : Char) (rest : List Char) :
    pieces (Printer.escape c ++ rest) = (pieceOf c :: (pieces rest).1, (pieces rest).2) := by
  unfold Printer.escape
  split
  · next h => subst h; rfl
  split
  · next h => subst h; rfl
  split
  · next h => subst h; rfl
  split
  · next h => subst h; rfl
  split
  · next h => subst h; rfl
  split
  · next h => subst h; rfl
  split
  · next h => subst h; rfl
  next hquote hslash h8 hc hn hr ht =>
  split
  · next hcontrol =>
    have hpiece : pieceOf c = .unit c.toNat := if_pos ⟨hcontrol, by simp [*]⟩
    simp only [List.cons_append, List.nil_append]
    rw [pieces, unit?_hexDigit _ hcontrol, hpiece]
  · next hplain =>
    have hpiece : pieceOf c = .char c := if_neg fun h => hplain h.1
    simp only [List.cons_append, List.nil_append]
    rw [pieces, if_neg hquote, if_neg hplain, hpiece]
    all_goals simp [hslash]

theorem spell_pieceOf (after : Except ParseFault Unit) (c : Char) (ps : List Piece) :
    spell after none (pieceOf c :: ps) = (spell after none ps).map (c :: ·) := by
  unfold pieceOf
  split
  · next h =>
    have hlow : isLow c.toNat = false := by simp [isLow]; omega
    have hhigh : isHigh c.toNat = false := by simp [isHigh]; omega
    simp only [spell, hlow, hhigh, Char.ofNat_toNat]
    rfl
  · rfl

theorem pieces_quoted (cs rest : List Char) :
    pieces (cs.flatMap Printer.escape ++ '"' :: rest) = (cs.map pieceOf, .ok rest) := by
  induction cs with
  | nil => rfl
  | cons c cs ih => rw [List.flatMap_cons, List.append_assoc, pieces_escape, ih, List.map_cons]

theorem spell_pieceOf_map (cs : List Char) : spell (.ok ()) none (cs.map pieceOf) = .ok cs := by
  induction cs with
  | nil => rfl
  | cons c cs ih =>
    rw [List.map_cons, spell_pieceOf, ih]
    rfl

theorem string_quote (s : String) (rest : List Char) :
    string (s.toList.flatMap Printer.escape ++ '"' :: rest) = (.sound s, some rest) := by
  have hspell := spell_pieceOf_map s.toList
  simp only [string, pieces_quoted]
  show (_, _) = _
  simp [Except.map, hspell, Leaf.sound, Except.toOption]

/-! ## Numbers -/

/-- What follows does not go on with a number. -/
def EndsNumber (rest : List Char) : Prop :=
  ∀ c ∈ rest.head?, c.isDigit = false ∧ c ≠ '.' ∧ c ≠ 'e' ∧ c ≠ 'E'

/-- Decimal digits as they are written: at least one, and no superfluous zero before them. -/
structure IsWhole (ds : List Char) : Prop where
  digits : ∀ d ∈ ds, d.isDigit
  nonempty : ds ≠ []
  leading : ds.head? = some '0' → ds = ['0']

variable {ds rest : List Char}

theorem wholeDigits_append (h : IsWhole ds) (hrest : EndsNumber rest) :
    wholeDigits (ds ++ rest) = .ok (ds, rest) := by
  have htake : rest.takeWhile Char.isDigit = [] ∧ rest.dropWhile Char.isDigit = rest := by
    cases rest with
    | nil => exact ⟨rfl, rfl⟩
    | cons c rest =>
      have hc := (hrest c rfl).1
      exact ⟨List.takeWhile_cons_of_neg (by simp [hc]), List.dropWhile_cons_of_neg (by simp [hc])⟩
  have hspan : (ds ++ rest).span Char.isDigit = (ds, rest) := by
    rw [List.span_eq_takeWhile_dropWhile, List.takeWhile_append_of_pos h.digits,
      List.dropWhile_append_of_pos h.digits, htake.1, htake.2, List.append_nil]
  have hdigits : digits (ds ++ rest) = .ok (ds, rest) := by
    cases ds with
    | nil => exact absurd rfl h.nonempty
    | cons d ds => simp only [digits, hspan]
  have hzero : ∀ d ds', ds ≠ '0' :: d :: ds' := by
    rintro d ds' rfl
    cases h.leading rfl
  simp only [wholeDigits, hdigits, bind, Except.bind]

theorem numeral_append (negative : Bool) (h : IsWhole ds) (hrest : EndsNumber rest) :
    numeral negative (ds ++ rest) =
      .ok ({ negative, whole := ds, fraction := none, exponent := none }, rest) := by
  have hfraction : fraction rest = .ok (none, rest) := by
    cases rest with
    | nil => rfl
    | cons c rest =>
      rw [fraction]
      rintro cs heq
      exact (hrest c rfl).2.1 (List.cons.inj heq).1
  have hexponent : exponent rest = .ok (none, rest) := by
    cases rest with
    | nil => rfl
    | cons c rest => rw [exponent, if_neg (by simp [(hrest c rfl).2.2])]
  rw [numeral, wholeDigits_append h hrest]
  show ((fraction rest).bind fun p => (exponent p.2).bind fun q => _) = _
  rw [hfraction]
  show ((exponent rest).bind fun q => _) = _
  rw [hexponent]
  rfl

/-- Digits whose number fits into a significand are read in full. -/
theorem significand_of_fits (n : Nat) (ds : List Char)
    (h : ds.foldl (fun n c => 10 * n + digitValue c) n ≤ greatestSignificand) :
    significand n ds = (ds.foldl (fun n c => 10 * n + digitValue c) n, []) := by
  have hgrows : ∀ (ds : List Char) (n : Nat),
      n ≤ ds.foldl (fun n c => 10 * n + digitValue c) n := by
    intro ds
    induction ds with
    | nil => exact fun n => Nat.le_refl n
    | cons d ds ih => exact fun n => Nat.le_trans (by omega) (ih (10 * n + digitValue d))
  induction ds generalizing n with
  | nil => rfl
  | cons d ds ih =>
    rw [significand, if_pos (Nat.le_trans (hgrows ds _) h)]
    exact ih _ h

theorem isWhole_toDigits (n : Nat) : IsWhole (Nat.toDigits 10 n) where
  digits _ hd := Nat.isDigit_of_mem_toDigits (by decide) (by decide) hd
  nonempty := Nat.toDigits_ne_nil
  leading := by
    induction n using Nat.strongRecOn with
    | _ n ih =>
      rw [Nat.toDigits_eq_if (by decide)]
      split
      · next hsmall =>
        intro hzero
        rw [List.head?_cons] at hzero
        rw [Option.some.inj hzero]
      · next hlarge =>
        intro hzero
        rw [List.head?_append_of_ne_nil _ Nat.toDigits_ne_nil] at hzero
        have hrest := ih (n / 10) (by omega) hzero
        have hvalue := congrArg (Nat.ofDigitChars 10 · 0) hrest
        simp only [Nat.ofDigitChars_toDigits (by decide : 1 < 10) (by decide : 10 ≤ 10)] at hvalue
        rw [show Nat.ofDigitChars 10 ['0'] 0 = 0 from rfl] at hvalue
        omega

theorem value?_toDigits (negative : Bool) {n : Nat} (h : n ≤ greatestSignificand) :
    (Numeral.mk negative (Nat.toDigits 10 n) none none).value? = wholeNumber negative n := by
  have hfold : (Nat.toDigits 10 n).foldl (fun n c => 10 * n + digitValue c) 0 = n :=
    Nat.ofDigitChars_toDigits (by decide : 1 < 10) (by decide : 10 ≤ 10)
  have hread := significand_of_fits 0 (Nat.toDigits 10 n) (by rwa [hfold])
  rw [hfold] at hread
  simp only [Numeral.value?, hread]

/-- The integers that are read as they are written. -/
def Readable (n : Int) : Prop := -9_223_372_036_854_775_808 ≤ n ∧ n ≤ 18_446_744_073_709_551_615

theorem number_toDigits (negative : Bool) {n : Nat} {v : Json} (h : n ≤ greatestSignificand)
    (hvalue : wholeNumber negative n = some v) (hrest : EndsNumber rest) :
    number negative (Nat.toDigits 10 n ++ rest) = (.atom (.sound v), some rest) := by
  rw [number, numeral_append negative (isWhole_toDigits n) hrest]
  simp only [value?_toDigits negative h, hvalue]

theorem isBlank_digit {c : Char} (hc : c.isDigit) : isBlank c = false := by
  rw [Bool.eq_false_iff]
  intro h
  simp only [isBlank, Bool.or_eq_true, decide_eq_true_eq] at h
  rcases h with ((rfl | rfl) | rfl) | rfl <;> revert hc <;> decide

theorem value_digit {c : Char} (hc : c.isDigit) (fuel : Nat) (cs : List Char) :
    value (fuel + 1) (c :: cs) = number false (c :: cs) := by
  have hblank : skipBlank (c :: cs) = c :: cs :=
    List.dropWhile_cons_of_neg (by simp [isBlank_digit hc])
  rw [value, hblank]
  split
  case h_9 c' cs' _ _ _ _ _ _ _ heq =>
    obtain ⟨rfl, rfl⟩ := List.cons.inj heq
    rw [if_pos hc]
  all_goals
    next heq =>
      first
      | obtain ⟨rfl, -⟩ := List.cons.inj heq
        exact absurd hc (by decide)
      | cases heq

theorem chars_ofNat (m : Nat) : Printer.chars (.int (.ofNat m)) = Nat.toDigits 10 m :=
  String.toList_ofList

theorem chars_negSucc (m : Nat) :
    Printer.chars (.int (.negSucc m)) = '-' :: Nat.toDigits 10 (m + 1) := by
  show ("-" ++ (m + 1).repr).toList = _
  simp [Nat.repr_eq_ofList_toDigits]

theorem value_int {n : Int} (hn : Readable n) (fuel : Nat) (hrest : EndsNumber rest) :
    value (fuel + 1) (Printer.chars (.int n) ++ rest) = (.atom (.sound (.int n)), some rest) := by
  cases n with
  | ofNat m =>
    have hfits : m ≤ greatestSignificand := Int.ofNat_le.mp hn.2
    obtain ⟨d, ds, hdigits⟩ := List.exists_cons_of_ne_nil (isWhole_toDigits m).nonempty
    have hd : d.isDigit := (isWhole_toDigits m).digits d (by rw [hdigits]; exact List.mem_cons_self)
    rw [chars_ofNat]
    refine Eq.trans ?_ (number_toDigits false hfits rfl hrest)
    rw [hdigits]
    exact value_digit hd fuel (ds ++ rest)
  | negSucc m =>
    have hfits : m + 1 ≤ 9_223_372_036_854_775_808 := by
      have := hn.1
      omega
    have hvalue : wholeNumber true (m + 1) = some (.int (.negSucc m)) := by
      rw [wholeNumber, if_neg (by decide), if_pos ⟨Nat.succ_ne_zero m, hfits⟩]
      rfl
    rw [chars_negSucc]
    exact number_toDigits true (Nat.le_trans hfits (by decide)) hvalue hrest

/-! ## Trees -/

mutual

/-- The tree holds no floats, and only integers that are read as they are written. -/
def Plain : Json → Prop
  | .null => True
  | .bool _ => True
  | .int n => Readable n
  | .float _ => False
  | .str _ => True
  | .arr items => PlainItems items
  | .obj fields => PlainFields fields

/-- `Plain` of every item. -/
def PlainItems : List Json → Prop
  | [] => True
  | v :: rest => Plain v ∧ PlainItems rest

/-- `Plain` of every field's value. -/
def PlainFields : List (String × Json) → Prop
  | [] => True
  | (_, v) :: rest => Plain v ∧ PlainFields rest

end

theorem plainItems_iff {items : List Json} : PlainItems items ↔ ∀ v ∈ items, Plain v := by
  induction items with
  | nil => simp [PlainItems]
  | cons v rest ih => rw [PlainItems, ih, List.forall_mem_cons]

theorem plainFields_iff {fields : List (String × Json)} :
    PlainFields fields ↔ ∀ field ∈ fields, Plain field.2 := by
  induction fields with
  | nil => simp [PlainFields]
  | cons field rest ih => rw [PlainFields, ih, List.forall_mem_cons]

theorem plainFields_perm {fields fields' : List (String × Json)} (h : fields.Perm fields')
    (hplain : PlainFields fields') : PlainFields fields :=
  plainFields_iff.mpr fun field hmem => plainFields_iff.mp hplain field (h.mem_iff.mp hmem)

theorem plainFields_present {fields : List (String × Option Json)}
    (h : ∀ field ∈ fields, ∀ value, field.2 = some value → Plain value) :
    PlainFields (fields.filterMap fun (k, v) => v.map (k, ·)) := by
  refine plainFields_iff.mpr fun field hmem => ?_
  obtain ⟨⟨name, v⟩, hfield, heq⟩ := List.mem_filterMap.mp hmem
  obtain ⟨value, rfl, rfl⟩ := Option.map_eq_some_iff.mp heq
  exact h _ hfield value rfl

theorem plain_ofStrings (texts : List String) : Plain (.ofStrings texts) :=
  plainItems_iff.mpr fun _ hv => by
    obtain ⟨text, -, rfl⟩ := List.mem_map.mp hv
    trivial

/-- A value begins with a character that is neither blank nor the end of an array. -/
theorem chars_eq_cons {j : Json} (hj : Plain j) :
    ∃ c cs, Printer.chars j = c :: cs ∧ isBlank c = false ∧ c ≠ ']' := by
  cases j with
  | null => exact ⟨_, _, rfl, rfl, by decide⟩
  | bool b => cases b <;> exact ⟨_, _, rfl, rfl, by decide⟩
  | float x => cases hj
  | str s => exact ⟨_, _, rfl, rfl, by decide⟩
  | arr items => exact ⟨_, _, rfl, rfl, by decide⟩
  | obj fields => exact ⟨_, _, rfl, rfl, by decide⟩
  | int n =>
    cases n with
    | ofNat m =>
      obtain ⟨d, ds, hdigits⟩ := List.exists_cons_of_ne_nil (isWhole_toDigits m).nonempty
      have hd := (isWhole_toDigits m).digits d (by rw [hdigits]; exact List.mem_cons_self)
      exact ⟨d, ds, by rw [chars_ofNat, hdigits], isBlank_digit hd, by rintro rfl; cases hd⟩
    | negSucc m => exact ⟨'-', _, chars_negSucc m, rfl, by decide⟩

theorem skipBlank_cons {c : Char} (hc : isBlank c = false) (cs : List Char) :
    skipBlank (c :: cs) = c :: cs :=
  List.dropWhile_cons_of_neg (by simp [hc])

theorem endsNumber_cons {c : Char} (hc : c = ',' ∨ c = ']' ∨ c = '\x7d') (cs : List Char) :
    EndsNumber (c :: cs) := by
  intro d hd
  obtain rfl := Option.some.inj hd
  rcases hc with rfl | rfl | rfl <;> decide

/-! ### Steps of the descent -/

section Steps

variable {fuel : Nat} {cs cs' rest : List Char}

theorem value_array {values : List Document} (h : items fuel cs = (values, .ok rest)) :
    value (fuel + 1) ('[' :: cs) = (.array values (.ok ()), some rest) := by
  have hopen : skipBlank ('[' :: cs) = '[' :: cs := rfl
  simp only [value, hopen, h]
  rfl

theorem value_object {entries : List (Leaf String × Document)}
    (h : fields fuel cs = (entries, .ok rest)) :
    value (fuel + 1) ('\x7b' :: cs) = (.object entries (.ok ()), some rest) := by
  have hopen : skipBlank ('\x7b' :: cs) = '\x7b' :: cs := rfl
  simp only [value, hopen, h]
  rfl

theorem someItems_last {v : Document} (h : value fuel cs = (v, some (']' :: rest))) :
    someItems (fuel + 1) cs = ([v], .ok rest) := by
  rw [someItems, h]
  rfl

theorem someItems_more {v : Document} {vs : List Document}
    (h : value fuel cs = (v, some (',' :: cs'))) (hmore : someItems fuel cs' = (vs, .ok rest)) :
    someItems (fuel + 1) cs = (v :: vs, .ok rest) := by
  have hcomma : skipBlank (',' :: cs') = ',' :: cs' := rfl
  simp only [someItems, h, Option.map_some, hcomma, hmore]

theorem someFields_last {key : Leaf String} {v : Document}
    (hkey : string cs = (key, some (':' :: cs')))
    (h : value fuel cs' = (v, some ('\x7d' :: rest))) :
    someFields (fuel + 1) ('"' :: cs) = ([(key, v)], .ok rest) := by
  have hcolon : skipBlank (':' :: cs') = ':' :: cs' := rfl
  have hclose : skipBlank ('\x7d' :: rest) = '\x7d' :: rest := rfl
  have hquote : skipBlank ('"' :: cs) = '"' :: cs := rfl
  simp only [someFields, hquote, hkey, Option.map_some, hcolon, h, hclose]

theorem someFields_more {key : Leaf String} {v : Document} {cs'' : List Char}
    {kvs : List (Leaf String × Document)} (hkey : string cs = (key, some (':' :: cs')))
    (h : value fuel cs' = (v, some (',' :: cs'')))
    (hmore : someFields fuel cs'' = (kvs, .ok rest)) :
    someFields (fuel + 1) ('"' :: cs) = ((key, v) :: kvs, .ok rest) := by
  have hcolon : skipBlank (':' :: cs') = ':' :: cs' := rfl
  have hcomma : skipBlank (',' :: cs'') = ',' :: cs'' := rfl
  have hquote : skipBlank ('"' :: cs) = '"' :: cs := rfl
  simp only [someFields, hquote, hkey, Option.map_some, hcolon, h, hcomma, hmore]

end Steps

/-! ### From the text of a tree to its document -/

/-- A quoted text and what follows. -/
theorem quote_append (s : String) (rest : List Char) :
    Printer.quote s ++ rest = '"' :: (s.toList.flatMap Printer.escape ++ '"' :: rest) := by
  simp [Printer.quote]

theorem arr_append (items : List Json) (rest : List Char) :
    Printer.chars (.arr items) ++ rest = '[' :: (Printer.charsItems items ++ ']' :: rest) := by
  simp [Printer.chars]

theorem obj_append (fields : List (String × Json)) (rest : List Char) :
    Printer.chars (.obj fields) ++ rest =
      '\x7b' :: (Printer.charsFields fields ++ '\x7d' :: rest) := by
  simp [Printer.chars]

theorem items_eq_someItems {items : List Json} (hitems : PlainItems items) (hne : items ≠ [])
    (fuel : Nat) (rest : List Char) :
    Parser.items (fuel + 1) (Printer.charsItems items ++ rest) =
      someItems fuel (Printer.charsItems items ++ rest) := by
  obtain ⟨c, cs, hchars, hblank, hclose⟩ : ∃ c cs, Printer.charsItems items = c :: cs ∧
      isBlank c = false ∧ c ≠ ']' := by
    match items, hitems with
    | [v], hitems => exact chars_eq_cons hitems.1
    | v :: w :: items, hitems =>
      obtain ⟨c, cs, hchars, hc⟩ := chars_eq_cons hitems.1
      exact ⟨c, _, by rw [Printer.charsItems, hchars]; rfl, hc⟩
  rw [hchars, List.cons_append, Parser.items, skipBlank_cons hblank]
  split
  · next heq => cases heq
  · next heq => exact absurd (List.cons.inj heq).1 hclose
  · next heq => rw [heq]

theorem fields_eq_someFields {fields : List (String × Json)} (hne : fields ≠ []) (fuel : Nat)
    (rest : List Char) :
    Parser.fields (fuel + 1) (Printer.charsFields fields ++ rest) =
      someFields fuel (Printer.charsFields fields ++ rest) := by
  match fields, hne with
  | [(k, v)], _ => rfl
  | (k, v) :: w :: fields, _ => rfl

mutual

/-- The text of a value is read as the value, and what follows is left. -/
theorem value_chars : ∀ {j : Json}, Plain j → ∀ (fuel : Nat) (rest : List Char),
    3 * (Printer.chars j).length ≤ fuel + 1 → EndsNumber rest →
      value (fuel + 1) (Printer.chars j ++ rest) = (.ofJson j, some rest)
  | .null, _, _, _, _, _ => rfl
  | .bool true, _, _, _, _, _ => rfl
  | .bool false, _, _, _, _, _ => rfl
  | .int n, hj, fuel, rest, _, hrest => value_int hj fuel hrest
  | .str s, _, fuel, rest, _, _ => by
    have hstring := string_quote s rest
    rw [Printer.chars, quote_append]
    have hopen : skipBlank ('"' :: (s.toList.flatMap Printer.escape ++ '"' :: rest)) =
        '"' :: (s.toList.flatMap Printer.escape ++ '"' :: rest) := rfl
    simp only [value, hopen, hstring, Document.ofJson]
  | .arr [], _, fuel + 1, rest, _, _ => rfl
  | .arr (v :: items), hj, fuel, rest, hfuel, _ => by
    simp only [Printer.chars, List.length_cons, List.length_append, List.length_nil] at hfuel
    obtain ⟨fuel, rfl⟩ : ∃ f, fuel = f + 3 := ⟨fuel - 3, by omega⟩
    have hne := List.cons_ne_nil v items
    have hitems := someItems_chars hj hne fuel rest (by omega)
    rw [← items_eq_someItems hj hne] at hitems
    rw [arr_append]
    exact value_array hitems
  | .obj [], _, fuel + 1, rest, _, _ => rfl
  | .obj (field :: fields), hj, fuel, rest, hfuel, _ => by
    simp only [Printer.chars, List.length_cons, List.length_append, List.length_nil] at hfuel
    obtain ⟨fuel, rfl⟩ : ∃ f, fuel = f + 3 := ⟨fuel - 3, by omega⟩
    have hne := List.cons_ne_nil field fields
    have hfields := someFields_chars hj hne fuel rest (by omega)
    rw [← fields_eq_someFields hne] at hfields
    rw [obj_append]
    exact value_object hfields

theorem someItems_chars : ∀ {items : List Json}, PlainItems items → items ≠ [] →
    ∀ (fuel : Nat) (rest : List Char), 3 * (Printer.charsItems items).length ≤ fuel + 1 →
      someItems (fuel + 2) (Printer.charsItems items ++ ']' :: rest) =
        (Document.ofItems items, .ok rest)
  | [v], hitems, _, fuel, rest, hfuel =>
    someItems_last (value_chars hitems.1 _ _ hfuel (endsNumber_cons (by simp) _))
  | v :: w :: items, hitems, _, fuel, rest, hfuel => by
    simp only [Printer.charsItems, List.length_append, List.length_cons] at hfuel
    obtain ⟨fuel, rfl⟩ : ∃ f, fuel = f + 1 := ⟨fuel - 1, by omega⟩
    have hmore := someItems_chars hitems.2 (List.cons_ne_nil w items) fuel rest (by omega)
    rw [Printer.charsItems, List.append_assoc]
    exact someItems_more
      (value_chars hitems.1 _ _ (by omega) (endsNumber_cons (.inl rfl) _)) hmore

theorem someFields_chars : ∀ {fields : List (String × Json)}, PlainFields fields → fields ≠ [] →
    ∀ (fuel : Nat) (rest : List Char), 3 * (Printer.charsFields fields).length ≤ fuel + 1 →
      someFields (fuel + 2) (Printer.charsFields fields ++ '\x7d' :: rest) =
        (Document.ofFields fields, .ok rest)
  | [(k, v)], hfields, _, fuel, rest, hfuel => by
    simp only [Printer.charsFields, List.length_append, List.length_cons] at hfuel
    rw [Printer.charsFields, List.append_assoc, quote_append, List.cons_append]
    exact someFields_last (string_quote k _)
      (value_chars hfields.1 _ _ (by omega) (endsNumber_cons (by simp) _))
  | (k, v) :: w :: fields, hfields, _, fuel, rest, hfuel => by
    simp only [Printer.charsFields, List.length_append, List.length_cons] at hfuel
    obtain ⟨fuel, rfl⟩ : ∃ f, fuel = f + 1 := ⟨fuel - 1, by omega⟩
    have hmore := someFields_chars hfields.2 (List.cons_ne_nil w fields) fuel rest
      (by omega)
    rw [Printer.charsFields, List.append_assoc, List.append_assoc, quote_append, List.cons_append,
      List.cons_append]
    exact someFields_more (string_quote k _)
      (value_chars hfields.1 _ _ (by omega) (endsNumber_cons (.inl rfl) _)) hmore

end

end Parser

/-! ## Texts -/

/-- The text of a tree is read as the undamaged document of the tree, and nothing is left. -/
theorem Document.ofText_render {j : Json} (hj : Parser.Plain j) :
    Document.ofText (render j) = (.ofJson j, some []) := by
  have hlength : (render j).length = (Printer.chars j).length := String.length_ofList
  have hvalue := Parser.value_chars hj (3 * (render j).length + 2) [] (by omega) nofun
  rw [List.append_nil] at hvalue
  rw [Document.ofText, render, String.toList_ofList]
  exact hvalue

/-- A reader finds in the text of a tree what it finds in the tree. -/
theorem Reader.run?_render {α : Type} (r : Reader α) {j : Json} (hj : Parser.Plain j) :
    r.run? (render j) = (r depthLimit (.ofJson j)).toOption := by
  have hrun : r.run (render j) = (r depthLimit (.ofJson j)).bind .ok := by
    rw [run, Document.ofText_render hj]
    rfl
  rw [run?, hrun]
  cases r depthLimit (.ofJson j) <;> rfl

/-- An object that is read as a value from its tree is read as the value from its text. -/
theorem Reader.run?_render_obj {α : Type} {r : Reader α} {fields : List (String × Json)} {a : α}
    (hplain : Parser.PlainFields fields) (hread : r depthLimit (.ofJson (.obj fields)) = .ok a) :
    r.run? (render (.obj fields)) = some a := by
  have hobj : Parser.Plain (.obj fields) := hplain
  rw [run?_render r hobj, hread]
  rfl

end Reconciler.Json
