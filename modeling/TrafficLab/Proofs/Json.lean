import Mathlib.Tactic.SplitIfs
import TrafficLab.Json.Printer
import TrafficLab.Json.Reader

/-!
# JSON: what is printed is read back

The reader takes exactly the characters that were printed for a datum and leaves what follows them,
unless a number could go on there.

    number? (toString n ++ rest) = some (.int n, rest)                            (number?_int)
    text? (s between its quotes ++ rest) = some (.text s, rest)                    (text?_quote)
    d.FitsJson depth → value? fuel (prettyAt level d ++ rest) = some (d.inJson, rest)
                                                                              (value?_prettyAt)
    d.FitsJson 127 → read? (pretty d) = some d.inJson                             (read?_pretty)

JSON has texts for keys only.  `Datum.inJson` is the datum that a text denotes: the one that was
printed, with the names of its keys for the keys.
-/

namespace TrafficLab

/-! ## Data in JSON -/

namespace Datum

/-- The text that a key becomes. -/
def keyName : Datum → String
  | text s => s
  | int n => toString n
  | _ => ""

mutual

/-- What is left of a datum in JSON. -/
def inJson : Datum → Datum
  | list items => list (itemsInJson items)
  | map entries => map (entriesInJson entries)
  | d => d

def itemsInJson : List Datum → List Datum
  | [] => []
  | d :: rest => inJson d :: itemsInJson rest

def entriesInJson : List (Datum × Datum) → List (Datum × Datum)
  | [] => []
  | (k, d) :: rest => (text (keyName k), inJson d) :: entriesInJson rest

end

/-- Whether a datum can be printed and read back by a reader that follows `depth` levels: its
numbers have 64 bits.  Floating-point numbers are left out: nothing is known here of their texts.
Bytes are left out too: they would be read back as a list. -/
inductive FitsJson : Nat → Datum → Prop
  | null {depth : Nat} : FitsJson depth .null
  | bool {depth : Nat} (b : Bool) : FitsJson depth (.bool b)
  | int {depth : Nat} {n : Int} (lower : -(2 ^ 63 : Nat) ≤ n) (upper : n < (2 ^ 64 : Nat)) :
    FitsJson depth (.int n)
  | text {depth : Nat} (s : String) : FitsJson depth (.text s)
  | list {depth : Nat} {items : List Datum} (parts : ∀ d ∈ items, FitsJson depth d) :
    FitsJson (depth + 1) (.list items)
  | map {depth : Nat} {entries : List (Datum × Datum)}
    (values : ∀ e ∈ entries, FitsJson depth e.2) : FitsJson (depth + 1) (.map entries)

end Datum

/-! ## Numbers -/

theorem Decimal.takeDigits_append {ds rest : List Char} (hds : ∀ c ∈ ds, c.isDigit = true)
    (hrest : ∀ c ∈ rest.head?, c.isDigit = false) (value count : Nat) :
    takeDigits value count (ds ++ rest) =
      (Nat.ofDigitChars 10 ds value, count + ds.length, rest) := by
  induction ds generalizing value count with
  | nil =>
    cases rest with
    | nil => rfl
    | cons c rest =>
      rw [List.nil_append, takeDigits, hrest c rfl]
      rfl
  | cons c ds ih =>
    have ih := ih fun d hd => hds d (List.mem_cons_of_mem c hd)
    rw [List.cons_append, takeDigits, if_pos (hds c List.mem_cons_self), ih,
      Nat.ofDigitChars_cons, Nat.mul_comm value, List.length_cons, Nat.add_right_comm,
      Nat.add_assoc]
    rfl

theorem exists_toDigits_eq_cons (n : Nat) :
    ∃ c cs, Nat.toDigits 10 n = c :: cs ∧ c.isDigit = true := by
  obtain ⟨c, cs, h⟩ := List.exists_cons_of_ne_nil (Nat.toDigits_ne_nil (b := 10) (n := n))
  refine ⟨c, cs, h, Nat.isDigit_of_mem_toDigits (b := 10) (n := n) (by decide) (by decide) ?_⟩
  rw [h]
  exact List.mem_cons_self

/-- No number but zero begins with a zero. -/
theorem head?_toDigits_ne {n : Nat} (h : 0 < n) : (Nat.toDigits 10 n).head? ≠ some '0' := by
  induction n using Nat.strongRecOn with
  | ind n ih =>
    rw [Nat.toDigits_eq_if (by decide)]
    split
    · simp only [List.head?_cons, ne_eq, Option.some.injEq, Nat.digitChar_eq_zero]
      omega
    · rw [List.head?_append, Option.or_of_isSome (by simp [Nat.toDigits_ne_nil])]
      exact ih (n / 10) (by omega) (by omega)

theorem toList_toString_ofNat (n : Nat) :
    (toString (Int.ofNat n)).toList = Nat.toDigits 10 n :=
  Nat.toList_repr

theorem toList_toString_negSucc (n : Nat) :
    (toString (Int.negSucc n)).toList = '-' :: Nat.toDigits 10 (n + 1) := by
  show ("-" ++ Nat.repr (n + 1)).toList = _
  rw [String.toList_append, Nat.toList_repr]
  rfl

namespace Json

/-- Whether a number ends before these characters. -/
def Ends (rest : List Char) : Prop :=
  ∀ c ∈ rest.head?, c.isDigit = false ∧ c ≠ '.' ∧ c ≠ 'e' ∧ c ≠ 'E'

section
variable {rest : List Char} (hrest : Ends rest)

include hrest

theorem takeWhole?_digits (n : Nat) : takeWhole? (Nat.toDigits 10 n ++ rest) = some (n, rest) := by
  have hdigits := Decimal.takeDigits_append
    (fun c (hc : c ∈ Nat.toDigits 10 n) => Nat.isDigit_of_mem_toDigits (by decide) (by decide) hc)
    (fun c hc => (hrest c hc).1) 0 0
  have hpos : (Nat.toDigits 10 n).length ≠ 0 := Nat.ne_of_gt Nat.length_toDigits_pos
  obtain ⟨k, hk⟩ := Nat.exists_eq_succ_of_ne_zero hpos
  rw [Nat.ofDigitChars_ten_toDigits, Nat.zero_add, hk] at hdigits
  unfold takeWhole?
  split
  · next c r hcons =>
    -- a zero is the first digit of zero only, which has no other
    rcases Nat.eq_zero_or_pos n with rfl | hpos
    · rw [Nat.toDigits_zero, List.singleton_append, List.cons.injEq] at hcons
      obtain ⟨-, rfl⟩ := hcons
      rw [(hrest c rfl).1]
      rfl
    · refine absurd ?_ (head?_toDigits_ne hpos)
      have hhead := congrArg List.head? hcons
      rwa [List.head?_append, Option.or_of_isSome (by simp [Nat.toDigits_ne_nil])] at hhead
  · simp only [hdigits]

theorem magnitude?_digits (negative : Bool) (n : Nat) :
    magnitude? negative (Nat.toDigits 10 n ++ rest) = some (wholeDatum negative n, rest) := by
  unfold magnitude?
  rw [takeWhole?_digits hrest, Option.bind_eq_bind, Option.bind_some]
  cases rest with
  | nil => rfl
  | cons c r =>
    obtain ⟨-, hpoint, hlower, hupper⟩ := hrest c rfl
    simp [takeExponent?, hpoint, hlower, hupper]

theorem number?_int {n : Int} (lower : -(2 ^ 63 : Nat) ≤ n) (upper : n < (2 ^ 64 : Nat)) :
    number? ((toString n).toList ++ rest) = some (.int n, rest) := by
  cases n with
  | ofNat n =>
    have hnumber : number? (Nat.toDigits 10 n ++ rest) =
        magnitude? false (Nat.toDigits 10 n ++ rest) := by
      obtain ⟨c, cs, hcons, hdigit⟩ := exists_toDigits_eq_cons n
      rw [hcons, List.cons_append]
      unfold number?
      split
      · next r e =>
        cases e
        exact absurd hdigit (by decide)
      · rfl
    have hlt : n < 2 ^ 64 := Int.ofNat_lt.1 upper
    rw [toList_toString_ofNat, hnumber, magnitude?_digits hrest]
    unfold wholeDatum
    rw [if_neg Bool.false_ne_true, if_pos hlt]
  | negSucc n =>
    have hle : n + 1 ≤ 2 ^ 63 := by omega
    rw [toList_toString_negSucc, List.cons_append]
    show magnitude? true _ = _
    rw [magnitude?_digits hrest]
    unfold wholeDatum
    rw [if_pos rfl, if_pos ⟨Nat.succ_pos n, hle⟩]
    rfl

end

/-! ## Texts -/

theorem hex4?_control : ∀ n < 32, hex4? '0' '0' (hexChar (n / 16)) (hexChar n) = some n := by
  decide

/-- A character that begins no escape and does not end the text. -/
theorem textBody?_plain (fuel : Nat) (acc : List Char) {c : Char} (hquote : c ≠ '"')
    (hslash : c ≠ '\\') (rest : List Char) :
    textBody? (fuel + 1) (some acc) (c :: rest) =
      if c.toNat < 32 then none else textBody? fuel (some (c :: acc)) rest := by
  rw [textBody?.eq_def]
  split <;> simp_all

/-- A character is read back from its escape. -/
theorem textBody?_escape (fuel : Nat) (acc : List Char) (c : Char) (rest : List Char) :
    textBody? (fuel + 1) (some acc) (escape c ++ rest) = textBody? fuel (some (c :: acc)) rest := by
  unfold escape
  split_ifs with hquote hslash hn hr ht hb hf hcontrol
  · subst hquote; rfl
  · subst hslash; rfl
  · subst hn; rfl
  · subst hr; rfl
  · subst ht; rfl
  · subst hb; rfl
  · subst hf; rfl
  · have hhex := hex4?_control c.toNat hcontrol
    have hhigh : isHighSurrogate c.toNat = false := by
      unfold isHighSurrogate
      simp
      omega
    have hlow : isLowSurrogate c.toNat = false := by
      unfold isLowSurrogate
      simp
      omega
    simp only [List.cons_append, List.nil_append, textBody?, hhex, hhigh, hlow, Option.bind_eq_bind,
      Option.bind_some, Bool.false_eq_true, if_false, Option.map_some, Char.ofNat_toNat]
  · rw [List.singleton_append, textBody?_plain fuel acc hquote hslash, if_neg hcontrol]

/-- A text is read up to its closing quote. -/
theorem textBody?_quote {cs : List Char} (rest : List Char) {fuel : Nat} (acc : List Char)
    (hfuel : cs.length < fuel) :
    textBody? fuel (some acc) (cs.flatMap escape ++ '"' :: rest) =
      some (some (cs.reverse ++ acc), rest) := by
  induction cs generalizing acc fuel with
  | nil =>
    cases fuel with
    | zero => simp at hfuel
    | succ fuel => rfl
  | cons c cs ih =>
    cases fuel with
    | zero => simp at hfuel
    | succ fuel =>
      rw [List.flatMap_cons, List.append_assoc, textBody?_escape,
        ih _ (Nat.lt_of_succ_lt_succ hfuel), List.reverse_cons, List.append_assoc]
      rfl

theorem length_le_flatMap_escape (cs : List Char) : cs.length ≤ (cs.flatMap escape).length := by
  induction cs with
  | nil => exact Nat.le_refl 0
  | cons c cs ih =>
    have hc : 1 ≤ (escape c).length := by
      unfold escape
      split_ifs <;> simp
    rw [List.flatMap_cons, List.length_append, List.length_cons]
    omega

theorem toList_quote (s : String) : (quote s).toList = '"' :: s.toList.flatMap escape ++ ['"'] := by
  unfold quote
  simp

theorem text?_quote (s : String) (rest : List Char) :
    text? (s.toList.flatMap escape ++ '"' :: rest) = some (.text s, rest) := by
  have hlen := length_le_flatMap_escape s.toList
  unfold text?
  rw [textBody?_quote rest [] (by rw [List.length_append]; omega), Option.map_some]
  simp

/-! ## Blanks -/

theorem toList_lineStart (level : Nat) :
    (lineStart level).toList = '\n' :: List.replicate (2 * level) ' ' := by
  unfold lineStart
  simp

theorem skipBlanks_cons {c : Char} (h : isBlank c = false) (cs : List Char) :
    skipBlanks (c :: cs) = c :: cs := by
  rw [skipBlanks, h]
  rfl

theorem skipBlanks_lineStart (level : Nat) (cs : List Char) :
    skipBlanks ((lineStart level).toList ++ cs) = skipBlanks cs := by
  have hblanks : ∀ n, skipBlanks (List.replicate n ' ' ++ cs) = skipBlanks cs := by
    intro n
    induction n with
    | zero => rfl
    | succ n ih => exact ih
  rw [toList_lineStart]
  exact hblanks (2 * level)

theorem ends_lineStart (level : Nat) (rest : List Char) :
    Ends ((lineStart level).toList ++ rest) := by
  rw [toList_lineStart]
  rintro c ⟨⟩
  decide

theorem ends_comma (rest : List Char) : Ends (',' :: rest) := by
  rintro c ⟨⟩
  decide

/-- Whether characters can be the first of a value: they begin with no blank and do not end a
list. -/
def Starts (cs : List Char) : Prop := ∃ c rest, cs = c :: rest ∧ isBlank c = false ∧ c ≠ ']'

theorem Starts.skipBlanks_append {cs : List Char} (h : Starts cs) (rest : List Char) :
    skipBlanks (cs ++ rest) = cs ++ rest := by
  obtain ⟨c, cs, rfl, hblank, -⟩ := h
  exact skipBlanks_cons hblank (cs ++ rest)

/-! ## Values -/

theorem keyText_eq (k : Datum) : keyText k = quote k.keyName := by
  cases k <;> rfl

theorem exists_keyText_eq_cons (k : Datum) : ∃ cs, (keyText k).toList = '"' :: cs := by
  rw [keyText_eq, toList_quote]
  exact ⟨_, rfl⟩

/-- Whether a datum is read back where it is printed, in a list or map of the given depth. -/
structure ReadsBack (level : Nat) (d : Datum) : Prop where
  starts : Starts (prettyAt level d).toList
  value : ∀ fuel rest, Ends rest → (prettyAt level d).toList.length ≤ fuel →
    value? fuel ((prettyAt level d).toList ++ rest) = some (d.inJson, rest)

/-- The items of a list are read up to its end. -/
theorem items?_prettyItems {level : Nat} (outer : Nat) {items : List Datum}
    (hitems : ∀ e ∈ items, ReadsBack level e) {d : Datum} (hd : ReadsBack level d)
    (rest : List Char) (fuel : Nat)
    (hfuel : (prettyAt level d).toList.length + (prettyItems level items).toList.length < fuel) :
    items? fuel ((prettyAt level d).toList ++ ((prettyItems level items).toList ++
        ((lineStart outer).toList ++ ']' :: rest))) =
      some (d.inJson :: Datum.itemsInJson items, rest) := by
  induction items generalizing d fuel with
  | nil =>
    obtain ⟨fuel, rfl⟩ := Nat.exists_eq_succ_of_ne_zero (Nat.ne_zero_of_lt hfuel)
    have hvalue := hd.value fuel _ (ends_lineStart outer (']' :: rest)) (by omega)
    show items? (fuel + 1) ((prettyAt level d).toList ++
      ((lineStart outer).toList ++ ']' :: rest)) = _
    rw [items?, hvalue, Option.bind_eq_bind, Option.bind_some]
    simp only [skipBlanks_lineStart]
    rfl
  | cons e items ih =>
    obtain ⟨he, hitems⟩ := List.forall_mem_cons.1 hitems
    obtain ⟨fuel, rfl⟩ := Nat.exists_eq_succ_of_ne_zero (Nat.ne_zero_of_lt hfuel)
    have htext : (prettyItems level (e :: items)).toList = ',' :: ((lineStart level).toList ++
        ((prettyAt level e).toList ++ (prettyItems level items).toList)) := by
      simp [prettyItems]
    rw [htext] at hfuel ⊢
    simp only [List.length_cons, List.length_append] at hfuel
    simp only [List.cons_append, List.append_assoc]
    have hvalue := hd.value fuel _ (ends_comma ((lineStart level).toList ++
      ((prettyAt level e).toList ++ ((prettyItems level items).toList ++
        ((lineStart outer).toList ++ ']' :: rest))))) (by omega)
    have hread := ih hitems he fuel (by omega)
    rw [items?, hvalue, Option.bind_eq_bind, Option.bind_some]
    simp only [skipBlanks_cons (by decide : isBlank ',' = false), skipBlanks_lineStart,
      he.starts.skipBlanks_append, hread]
    rfl

/-- The first entry of a map, and what comes after it. -/
theorem members?_entry {level : Nat} (k : Datum) {d : Datum} (hd : ReadsBack level d) {fuel : Nat}
    (hfuel : (prettyAt level d).toList.length ≤ fuel) {more : List Char} (hmore : Ends more) :
    members? (fuel + 1) ((keyText k).toList ++ ':' :: ' ' :: ((prettyAt level d).toList ++ more)) =
      match skipBlanks more with
      | '\x7d' :: rest => some ([(.text k.keyName, d.inJson)], rest)
      | ',' :: rest => do
        let (entries, rest) ← members? fuel (skipBlanks rest)
        some ((.text k.keyName, d.inJson) :: entries, rest)
      | _ => none := by
  have hkey := text?_quote k.keyName (':' :: ' ' :: ((prettyAt level d).toList ++ more))
  have hblank : skipBlanks (' ' :: ((prettyAt level d).toList ++ more)) =
      (prettyAt level d).toList ++ more := hd.starts.skipBlanks_append more
  have hread := members?.eq_2 fuel
    (k.keyName.toList.flatMap escape ++ '"' :: ':' :: ' ' :: ((prettyAt level d).toList ++ more))
  simp only [hkey, Option.bind_eq_bind, Option.bind_some,
    skipBlanks_cons (by decide : isBlank ':' = false), hblank, hd.value fuel more hmore hfuel]
    at hread
  rw [keyText_eq, toList_quote, List.cons_append, List.cons_append, List.append_assoc,
    List.singleton_append]
  exact hread

/-- The entries of a map are read up to its end. -/
theorem members?_prettyEntries {level : Nat} (outer : Nat) {entries : List (Datum × Datum)}
    (hentries : ∀ e ∈ entries, ReadsBack level e.2) (k : Datum) {d : Datum}
    (hd : ReadsBack level d) (rest : List Char) (fuel : Nat)
    (hfuel : (prettyAt level d).toList.length + (prettyEntries level entries).toList.length
      < fuel) :
    members? fuel ((keyText k).toList ++ ':' :: ' ' :: ((prettyAt level d).toList ++
        ((prettyEntries level entries).toList ++ ((lineStart outer).toList ++ '\x7d' :: rest)))) =
      some ((.text k.keyName, d.inJson) :: Datum.entriesInJson entries, rest) := by
  induction entries generalizing k d fuel with
  | nil =>
    obtain ⟨fuel, rfl⟩ := Nat.exists_eq_succ_of_ne_zero (Nat.ne_zero_of_lt hfuel)
    show members? (fuel + 1) ((keyText k).toList ++ ':' :: ' ' :: ((prettyAt level d).toList ++
      ((lineStart outer).toList ++ '\x7d' :: rest))) = _
    rw [members?_entry k hd (by omega) (ends_lineStart outer ('\x7d' :: rest)),
      skipBlanks_lineStart]
    rfl
  | cons e entries ih =>
    obtain ⟨j, e⟩ := e
    obtain ⟨he, hentries⟩ := List.forall_mem_cons.1 hentries
    obtain ⟨fuel, rfl⟩ := Nat.exists_eq_succ_of_ne_zero (Nat.ne_zero_of_lt hfuel)
    have htext : (prettyEntries level ((j, e) :: entries)).toList = ',' :: ((lineStart level).toList
        ++ ((keyText j).toList ++ ':' :: ' ' :: ((prettyAt level e).toList ++
          (prettyEntries level entries).toList))) := by
      simp [prettyEntries]
    have hkey : Starts (keyText j).toList := by
      obtain ⟨cs, hcs⟩ := exists_keyText_eq_cons j
      exact ⟨'"', cs, hcs, by decide, by decide⟩
    rw [htext] at hfuel ⊢
    simp only [List.length_cons, List.length_append] at hfuel
    simp only [List.cons_append, List.append_assoc]
    have hread := ih hentries j he fuel (by simp only; omega)
    rw [members?_entry k hd (by omega) (ends_comma _),
      skipBlanks_cons (by decide : isBlank ',' = false)]
    simp only [skipBlanks_lineStart, hkey.skipBlanks_append, hread]
    rfl

/-- Whether a number begins with a character. -/
def BeginsNumber (c : Char) : Prop := c.isDigit = true ∨ c = '-'

theorem exists_toString_eq_cons (n : Int) :
    ∃ c cs, (toString n).toList = c :: cs ∧ BeginsNumber c := by
  cases n with
  | ofNat n =>
    obtain ⟨c, cs, h, hdigit⟩ := exists_toDigits_eq_cons n
    exact ⟨c, cs, (toList_toString_ofNat n).trans h, .inl hdigit⟩
  | negSucc n => exact ⟨'-', _, toList_toString_negSucc n, .inr rfl⟩

theorem BeginsNumber.starts {c : Char} (h : BeginsNumber c) (cs : List Char) :
    Starts (c :: cs) := by
  unfold BeginsNumber at h
  refine ⟨c, cs, rfl, ?_, ?_⟩
  · cases hblank : isBlank c with
    | false => rfl
    | true =>
      unfold isBlank at hblank
      simp only [Bool.or_eq_true, beq_iff_eq] at hblank
      rcases hblank with ((rfl | rfl) | rfl) | rfl <;> exact absurd h (by decide)
  · rintro rfl
    exact absurd h (by decide)

/-- What begins like a number is read as a number. -/
theorem BeginsNumber.value?_eq {c : Char} (h : BeginsNumber c) (fuel : Nat) (cs : List Char) :
    value? (fuel + 1) (c :: cs) = number? (c :: cs) := by
  unfold BeginsNumber at h
  unfold value?
  simp only
  split
  case h_7 => rfl
  all_goals
    next e =>
    cases e
    exact absurd h (by decide)

theorem readsBack_int {n : Int} (lower : -(2 ^ 63 : Nat) ≤ n) (upper : n < (2 ^ 64 : Nat))
    (level : Nat) : ReadsBack level (.int n) := by
  obtain ⟨c, cs, htext, hc⟩ := exists_toString_eq_cons n
  have hpretty : (prettyAt level (.int n)).toList = c :: cs := by
    rw [prettyAt, htext]
  constructor
  · rw [hpretty]
    exact hc.starts cs
  · intro fuel rest hrest hfuel
    have hnumber := number?_int hrest lower upper
    rw [hpretty] at hfuel ⊢
    rw [htext] at hnumber
    obtain ⟨fuel, rfl⟩ := Nat.exists_eq_succ_of_ne_zero (Nat.ne_zero_of_lt hfuel)
    exact (hc.value?_eq fuel (cs ++ rest)).trans hnumber

/-- A datum whose text does not go on with the next line is read if its first character leads to
it. -/
theorem readsBack_of_text {level : Nat} {d : Datum} {c : Char} {cs : List Char}
    (htext : (prettyAt level d).toList = c :: cs) (hblank : isBlank c = false) (hend : c ≠ ']')
    (h : ∀ fuel rest, cs.length ≤ fuel →
      value? (fuel + 1) (c :: (cs ++ rest)) = some (d.inJson, rest)) :
    ReadsBack level d := by
  refine ⟨htext ▸ ⟨c, cs, rfl, hblank, hend⟩, fun fuel rest _ hfuel => ?_⟩
  rw [htext] at hfuel ⊢
  obtain ⟨fuel, rfl⟩ := Nat.exists_eq_succ_of_ne_zero (Nat.ne_zero_of_lt hfuel)
  exact h fuel rest (Nat.le_of_succ_le_succ hfuel)

theorem value?_list {more : List Char} {c : Char} {cs : List Char} (h : skipBlanks more = c :: cs)
    (hend : c ≠ ']') (fuel : Nat) : value? (fuel + 1) ('[' :: more) =
      (items? fuel (c :: cs)).map fun (items, rest) => (.list items, rest) := by
  rw [value?]
  simp only [h]
  split
  · next e =>
    cases e
    exact absurd rfl hend
  · rfl

theorem value?_map {more : List Char} {c : Char} {cs : List Char} (h : skipBlanks more = c :: cs)
    (hend : c ≠ '\x7d') (fuel : Nat) : value? (fuel + 1) ('\x7b' :: more) =
      (members? fuel (c :: cs)).map fun (entries, rest) => (.map entries, rest) := by
  rw [value?]
  simp only [h]
  split
  · next e =>
    cases e
    exact absurd rfl hend
  · rfl

theorem readsBack_list {level : Nat} {items : List Datum}
    (hitems : ∀ d ∈ items, ReadsBack (level + 1) d) : ReadsBack level (.list items) := by
  cases items with
  | nil =>
    have htext : (prettyAt level (.list [])).toList = ['[', ']'] := by
      rw [prettyAt]
      rfl
    exact readsBack_of_text htext (by decide) (by decide) fun fuel rest _ => rfl
  | cons d items =>
    obtain ⟨hd, hitems⟩ := List.forall_mem_cons.1 hitems
    have htext : (prettyAt level (.list (d :: items))).toList = '[' ::
        ((lineStart (level + 1)).toList ++ ((prettyAt (level + 1) d).toList ++
          ((prettyItems (level + 1) items).toList ++ ((lineStart level).toList ++ [']'])))) := by
      simp [prettyAt]
    refine readsBack_of_text htext (by decide) (by decide) fun fuel rest hfuel => ?_
    simp only [List.length_append, toList_lineStart, List.length_cons] at hfuel
    simp only [List.append_assoc, List.singleton_append]
    have hread := items?_prettyItems level hitems hd rest fuel (by omega)
    obtain ⟨c, cs, hc, hblank, hend⟩ := hd.starts
    have hfirst : skipBlanks ((lineStart (level + 1)).toList ++ ((prettyAt (level + 1) d).toList ++
        ((prettyItems (level + 1) items).toList ++ ((lineStart level).toList ++ ']' :: rest)))) =
        c :: (cs ++ ((prettyItems (level + 1) items).toList ++
          ((lineStart level).toList ++ ']' :: rest))) := by
      rw [skipBlanks_lineStart, hc, List.cons_append, skipBlanks_cons hblank]
    rw [hc, List.cons_append] at hread
    rw [value?_list hfirst hend, hread]
    rfl

theorem readsBack_map {level : Nat} {entries : List (Datum × Datum)}
    (hentries : ∀ e ∈ entries, ReadsBack (level + 1) e.2) : ReadsBack level (.map entries) := by
  cases entries with
  | nil =>
    have htext : (prettyAt level (.map [])).toList = ['\x7b', '\x7d'] := by
      rw [prettyAt]
      rfl
    exact readsBack_of_text htext (by decide) (by decide) fun fuel rest _ => rfl
  | cons e entries =>
    obtain ⟨k, d⟩ := e
    obtain ⟨hd, hentries⟩ := List.forall_mem_cons.1 hentries
    have htext : (prettyAt level (.map ((k, d) :: entries))).toList = '\x7b' ::
        ((lineStart (level + 1)).toList ++ ((keyText k).toList ++ ':' :: ' ' ::
          ((prettyAt (level + 1) d).toList ++ ((prettyEntries (level + 1) entries).toList ++
            ((lineStart level).toList ++ ['\x7d']))))) := by
      simp [prettyAt]
    refine readsBack_of_text htext (by decide) (by decide) fun fuel rest hfuel => ?_
    simp only [List.length_append, toList_lineStart, List.length_cons] at hfuel
    simp only [List.append_assoc, List.cons_append, List.nil_append]
    have hread := members?_prettyEntries level hentries k hd rest fuel (by simp only; omega)
    obtain ⟨cs, hkey⟩ := exists_keyText_eq_cons k
    rw [hkey, List.cons_append] at hread ⊢
    have hfirst : ∀ more, skipBlanks ((lineStart (level + 1)).toList ++ '"' :: more) =
        '"' :: more := by
      intro more
      rw [skipBlanks_lineStart, skipBlanks_cons (by decide)]
    rw [value?_map (hfirst _) (by decide), hread]
    rfl

theorem readsBack_text (s : String) (level : Nat) : ReadsBack level (.text s) := by
  have htext : (prettyAt level (.text s)).toList = '"' :: (s.toList.flatMap escape ++ ['"']) := by
    rw [prettyAt, toList_quote]
    rfl
  refine readsBack_of_text htext (by decide) (by decide) fun fuel rest _ => ?_
  rw [List.append_assoc, List.singleton_append, value?]
  exact text?_quote s rest

theorem readsBack_bool (b : Bool) (level : Nat) : ReadsBack level (.bool b) := by
  cases b with
  | false =>
    have htext : (prettyAt level (.bool false)).toList = ['f', 'a', 'l', 's', 'e'] := by
      rw [prettyAt]
      rfl
    exact readsBack_of_text htext (by decide) (by decide) fun fuel rest _ => rfl
  | true =>
    have htext : (prettyAt level (.bool true)).toList = ['t', 'r', 'u', 'e'] := by
      rw [prettyAt]
      rfl
    exact readsBack_of_text htext (by decide) (by decide) fun fuel rest _ => rfl

theorem readsBack_null (level : Nat) : ReadsBack level .null := by
  have htext : (prettyAt level .null).toList = ['n', 'u', 'l', 'l'] := by
    rw [prettyAt]
    rfl
  exact readsBack_of_text htext (by decide) (by decide) fun fuel rest _ => rfl

theorem readsBack_prettyAt {depth : Nat} {d : Datum} (h : d.FitsJson depth) (level : Nat) :
    ReadsBack level d := by
  induction h generalizing level with
  | null => exact readsBack_null level
  | bool b => exact readsBack_bool b level
  | int lower upper => exact readsBack_int lower upper level
  | text s => exact readsBack_text s level
  | list _ ih => exact readsBack_list fun d hd => ih d hd (level + 1)
  | map _ ih => exact readsBack_map fun e he => ih e he (level + 1)

end Json

/-! ## Whole texts -/

namespace Datum

theorem itemsUpTo_itemsInJson {depth : Nat} {items : List Datum}
    (h : ∀ d ∈ items, d.inJson.upTo depth = d.inJson) :
    itemsUpTo depth (itemsInJson items) = itemsInJson items := by
  induction items with
  | nil => rfl
  | cons d items ih =>
    obtain ⟨hd, hitems⟩ := List.forall_mem_cons.1 h
    rw [itemsInJson, itemsUpTo, hd, ih hitems]

theorem entriesUpTo_entriesInJson {depth : Nat} {entries : List (Datum × Datum)}
    (h : ∀ e ∈ entries, e.2.inJson.upTo depth = e.2.inJson) :
    entriesUpTo depth (entriesInJson entries) = entriesInJson entries := by
  induction entries with
  | nil => rfl
  | cons e entries ih =>
    obtain ⟨k, d⟩ := e
    obtain ⟨hd, hentries⟩ := List.forall_mem_cons.1 h
    have hkey : (text k.keyName).upTo depth = text k.keyName := by cases depth <;> rfl
    rw [entriesInJson, entriesUpTo, hd, ih hentries, hkey]

/-- A datum that fits a reader is nested no deeper than the reader follows. -/
theorem FitsJson.upTo_inJson {m n : Nat} {d : Datum} (h : d.FitsJson m) (hle : m ≤ n) :
    d.inJson.upTo n = d.inJson := by
  induction h generalizing n with
  | list _ ih =>
    cases n with
    | zero => omega
    | succ n =>
      show Datum.list (itemsUpTo n (itemsInJson _)) = Datum.list (itemsInJson _)
      rw [itemsUpTo_itemsInJson fun d hd => ih d hd (Nat.le_of_succ_le_succ hle)]
  | map _ ih =>
    cases n with
    | zero => omega
    | succ n =>
      show Datum.map (entriesUpTo n (entriesInJson _)) = Datum.map (entriesInJson _)
      rw [entriesUpTo_entriesInJson fun e he => ih e he (Nat.le_of_succ_le_succ hle)]
  | _ => cases n <;> rfl

end Datum

/-- A datum is read back from its text, with the names of its keys for the keys. -/
theorem Json.read?_pretty {depth : Nat} {d : Datum} (h : d.FitsJson depth)
    (hdepth : depth ≤ maxDepth) : read? (pretty d) = some d.inJson := by
  obtain ⟨hstarts, hvalue⟩ := readsBack_prettyAt h 0
  have hfirst := hstarts.skipBlanks_append []
  have hread := hvalue ((prettyAt 0 d).toList.length + 1) [] nofun (Nat.le_succ _)
  rw [List.append_nil] at hfirst hread
  unfold read? pretty
  simp only [hfirst, hread, Option.bind_eq_bind, Option.bind_some]
  exact congrArg some (h.upTo_inJson hdepth)

end TrafficLab
