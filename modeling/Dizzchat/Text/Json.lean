import Dizzchat.Text.Numeral

set_option autoImplicit false

/-! # JSON

`dumps` and `loads` of Python's `json` with their default settings, over texts as lists of characters:
what is written is ASCII, with escapes for every other character. Floating-point numbers and lone
surrogates have no value here, so `loads` refuses them. -/

namespace Text

inductive Json
  | null
  | bool (b : Bool)
  | int (n : ℤ)
  | str (s : String)
  | arr (items : List Json)
  | obj (fields : List (String × Json))

namespace Json

/-- `raw[key]`. Of two fields with one name the later one counts. -/
def get? (key : String) : Json → Option Json
  | obj fields => fields.reverse.lookup key
  | _ => none

/-! ## Strings -/

def quote : Char := Char.ofNat 0x22

def backslash : Char := Char.ofNat 0x5c

/-- The characters with an escape of two characters, and its second character. -/
def shortEscapes : List (Char × Char) :=
  [(quote, quote), (backslash, backslash), (Char.ofNat 8, 'b'), (Char.ofNat 12, 'f'),
    (Char.ofNat 10, 'n'), (Char.ofNat 13, 'r'), (Char.ofNat 9, 't')]

/-- What a short escape stands for; a slash may be escaped as well. -/
def shortUnescapes : List (Char × Char) :=
  ('/', '/') :: shortEscapes.map Prod.swap

/-- The code units of a character in UTF-16. -/
def codeUnits (c : Char) : List ℕ :=
  if c.toNat < 0x10000 then [c.toNat]
  else [0xd800 + (c.toNat - 0x10000) / 0x400, 0xdc00 + (c.toNat - 0x10000) % 0x400]

def escapeUnit (n : ℕ) : List Char := backslash :: 'u' :: pad 16 4 n

def escape (c : Char) : List Char :=
  match shortEscapes.lookup c with
  | some e => [backslash, e]
  | none => if 32 ≤ c.toNat ∧ c.toNat ≤ 126 then [c] else (codeUnits c).flatMap escapeUnit

def dumpsString (s : String) : List Char :=
  quote :: (s.toList.flatMap escape ++ [quote])

/-- The code points up to the closing quote, a surrogate pair still as two, and the rest. -/
def scanUnits : List Char → Option (List ℕ × List Char)
  | [] => none
  | c :: cs =>
      if c = quote then some ([], cs)
      else if c = backslash then
        match cs with
        | 'u' :: w :: x :: y :: z :: cs =>
            (read 16 [w, x, y, z]).bind fun n => (scanUnits cs).map fun p => (n :: p.1, p.2)
        | e :: cs =>
            (shortUnescapes.lookup e).bind fun c =>
              (scanUnits cs).map fun p => (c.toNat :: p.1, p.2)
        | [] => none
      else if c.toNat < 32 then none
      else (scanUnits cs).map fun p => (c.toNat :: p.1, p.2)

def isHigh (n : ℕ) : Bool := 0xd800 ≤ n && n ≤ 0xdbff

def isLow (n : ℕ) : Bool := 0xdc00 ≤ n && n ≤ 0xdfff

def joinUnits : List ℕ → Option (List Char)
  | [] => some []
  | n :: ns =>
      if isHigh n then
        match ns with
        | m :: ms =>
            if isLow m then
              (joinUnits ms).map (Char.ofNat (0x10000 + (n - 0xd800) * 0x400 + (m - 0xdc00)) :: ·)
            else none
        | [] => none
      else if isLow n then none
      else (joinUnits ns).map (Char.ofNat n :: ·)

def scanString (cs : List Char) : Option (String × List Char) :=
  (scanUnits cs).bind fun p => (joinUnits p.1).map fun s => (String.ofList s, p.2)

theorem scanUnits_quote (cs : List Char) : scanUnits (quote :: cs) = some ([], cs) := by
  rw [scanUnits.eq_def]
  rfl

theorem scanUnits_plain {c : Char} (hquote : c ≠ quote) (hback : c ≠ backslash)
    (hcontrol : 32 ≤ c.toNat) (cs : List Char) :
    scanUnits (c :: cs) = (scanUnits cs).map fun p => (c.toNat :: p.1, p.2) := by
  rw [scanUnits.eq_def]
  simp [hquote, hback, Nat.not_lt.2 hcontrol]

theorem scanUnits_short {c e : Char} (hback : shortUnescapes.lookup e = some c) (hu : e ≠ 'u')
    (cs : List Char) :
    scanUnits (backslash :: e :: cs) = (scanUnits cs).map fun p => (c.toNat :: p.1, p.2) := by
  rw [scanUnits.eq_3 backslash e cs fun _ _ _ _ _ h => absurd h hu, if_neg (by decide),
    if_pos rfl, hback]
  rfl

theorem scanUnits_escapeUnit {n : ℕ} (hn : n < 0x10000) (cs : List Char) :
    scanUnits (escapeUnit n ++ cs) = (scanUnits cs).map fun p => (n :: p.1, p.2) := by
  have hread : read 16 (pad 16 4 n) = some n := read_pad (by omega) (by omega) (by omega) hn
  obtain ⟨w, x, y, z, hpad⟩ : ∃ w x y z, pad 16 4 n = [w, x, y, z] := ⟨_, _, _, _, rfl⟩
  show scanUnits (backslash :: 'u' :: (pad 16 4 n ++ cs)) = _
  rw [hpad] at hread ⊢
  show scanUnits (backslash :: 'u' :: w :: x :: y :: z :: cs) = _
  rw [scanUnits, if_neg (by decide), if_pos rfl, hread]
  rfl

theorem scanUnits_flatMap {ns : List ℕ} (hns : ∀ n ∈ ns, n < 0x10000) (cs : List Char) :
    scanUnits (ns.flatMap escapeUnit ++ cs) =
      (scanUnits cs).map fun p => (ns ++ p.1, p.2) := by
  induction ns with
  | nil => simp
  | cons n ns ih =>
      rw [List.flatMap_cons, List.append_assoc, scanUnits_escapeUnit (hns n List.mem_cons_self),
        ih fun m hm => hns m (List.mem_cons_of_mem n hm), Option.map_map]
      rfl

theorem codeUnits_lt {c : Char} {n : ℕ} (hn : n ∈ codeUnits c) : n < 0x10000 := by
  have hc : c.toNat < 0x110000 := by
    have hvalid := c.valid
    have hnat : c.val.toNat = c.toNat := rfl
    simp only [UInt32.isValidChar, Nat.isValidChar, hnat] at hvalid
    omega
  unfold codeUnits at hn
  split at hn
  · rw [List.mem_singleton] at hn
    omega
  · simp only [List.mem_cons, List.not_mem_nil, or_false] at hn
    omega

/-- The table of short escapes, read in both directions. -/
theorem lookup_shortEscapes {c e : Char} (h : shortEscapes.lookup c = some e) :
    shortUnescapes.lookup e = some c ∧ e ≠ 'u' ∧ c.toNat < 0x10000 := by
  have hmem : (c, e) ∈ shortEscapes := by
    rw [List.lookup_eq_some_iff] at h
    obtain ⟨l, r, hsplit, -⟩ := h
    rw [hsplit]
    simp
  have hall : ∀ p ∈ shortEscapes,
      shortUnescapes.lookup p.2 = some p.1 ∧ p.2 ≠ 'u' ∧ p.1.toNat < 0x10000 := by decide
  exact hall _ hmem

theorem scanUnits_escape (c : Char) (cs : List Char) :
    scanUnits (escape c ++ cs) = (scanUnits cs).map fun p => (codeUnits c ++ p.1, p.2) := by
  unfold escape
  split
  · next e he =>
      obtain ⟨hback, hu, hlt⟩ := lookup_shortEscapes he
      rw [codeUnits, if_pos hlt]
      exact scanUnits_short hback hu cs
  · next he =>
      split
      · next hplain =>
          have hquote : c ≠ quote := by
            rintro rfl
            cases he
          have hback : c ≠ backslash := by
            rintro rfl
            cases he
          rw [codeUnits, if_pos (by omega)]
          exact scanUnits_plain hquote hback hplain.1 cs
      · exact scanUnits_flatMap (fun n hn => codeUnits_lt hn) cs

theorem joinUnits_codeUnits (c : Char) (ns : List ℕ) :
    joinUnits (codeUnits c ++ ns) = (joinUnits ns).map (c :: ·) := by
  have hvalid : c.toNat < 0xd800 ∨ 0xdfff < c.toNat ∧ c.toNat < 0x110000 := c.valid
  unfold codeUnits
  split
  · next hlt =>
      have hhigh : isHigh c.toNat = false := by
        simp only [isHigh, Bool.and_eq_false_iff, decide_eq_false_iff_not]
        omega
      have hlow : isLow c.toNat = false := by
        simp only [isLow, Bool.and_eq_false_iff, decide_eq_false_iff_not]
        omega
      show joinUnits (c.toNat :: ns) = _
      rw [joinUnits.eq_def]
      simp [hhigh, hlow]
  · next hlt =>
      have hhigh : isHigh (0xd800 + (c.toNat - 0x10000) / 0x400) = true := by
        simp only [isHigh, Bool.and_eq_true, decide_eq_true_eq]
        omega
      have hlow : isLow (0xdc00 + (c.toNat - 0x10000) % 0x400) = true := by
        simp only [isLow, Bool.and_eq_true, decide_eq_true_eq]
        omega
      have hjoin : 0x10000 + (0xd800 + (c.toNat - 0x10000) / 0x400 - 0xd800) * 0x400 +
          (0xdc00 + (c.toNat - 0x10000) % 0x400 - 0xdc00) = c.toNat := by
        omega
      show joinUnits (_ :: _ :: ns) = _
      rw [joinUnits, hhigh, if_pos rfl]
      simp only [hlow, if_true, hjoin, Char.ofNat_toNat]

/-- What is written between quotes is read back. -/
theorem scanString_flatMap (s : List Char) (cs : List Char) :
    scanString (s.flatMap escape ++ quote :: cs) = some (String.ofList s, cs) := by
  have hunits : scanUnits (s.flatMap escape ++ quote :: cs) = some (s.flatMap codeUnits, cs) := by
    induction s with
    | nil => exact scanUnits_quote cs
    | cons c s ih =>
        rw [List.flatMap_cons, List.append_assoc, scanUnits_escape, ih]
        rfl
  have hjoin : joinUnits (s.flatMap codeUnits) = some s := by
    clear hunits
    induction s with
    | nil => rfl
    | cons c s ih =>
        rw [List.flatMap_cons, joinUnits_codeUnits, ih]
        rfl
  simp [scanString, hunits, hjoin]

/-! ## Numbers -/

/-- The next character cannot continue an integer. -/
def Ends (cs : List Char) : Prop :=
  ∀ c, cs.head? = some c → c.isDigit = false ∧ c ≠ '.' ∧ c ≠ 'e' ∧ c ≠ 'E'

instance (cs : List Char) : Decidable (Ends cs) :=
  match cs with
  | [] => .isTrue (by simp [Ends])
  | c :: _ => decidable_of_iff (c.isDigit = false ∧ c ≠ '.' ∧ c ≠ 'e' ∧ c ≠ 'E') (by simp [Ends])

/-- An integer part without leading zeros, with no fraction and no exponent behind it. -/
def scanNatural (cs : List Char) : Option (ℕ × List Char) :=
  let digits := cs.takeWhile Char.isDigit
  let rest := cs.dropWhile Char.isDigit
  if digits = [] ∨ (digits.head? = some '0' ∧ digits ≠ ['0']) ∨ ¬ Ends rest then none
  else some (Nat.ofDigitChars 10 digits 0, rest)

def scanInt : List Char → Option (ℤ × List Char)
  | '-' :: cs => (scanNatural cs).map fun p => (-(p.1 : ℤ), p.2)
  | cs => (scanNatural cs).map fun p => ((p.1 : ℤ), p.2)

theorem scanNatural_toDigits (n : ℕ) {cs : List Char} (hends : Ends cs) :
    scanNatural (Nat.toDigits 10 n ++ cs) = some (n, cs) := by
  have hdigit : ∀ c ∈ Nat.toDigits 10 n, c.isDigit = true := fun c hc => isDigit_of_mem_toDigits hc
  have hstop : ∀ c, cs.head? = some c → c.isDigit = false := fun c hc => (hends c hc).1
  have htake : (Nat.toDigits 10 n ++ cs).takeWhile Char.isDigit = Nat.toDigits 10 n := by
    rw [List.takeWhile_append_of_pos hdigit]
    cases cs with
    | nil => simp
    | cons c cs => simp [hstop c rfl]
  have hdrop : (Nat.toDigits 10 n ++ cs).dropWhile Char.isDigit = cs := by
    rw [List.dropWhile_append_of_pos hdigit]
    cases cs with
    | nil => rfl
    | cons c cs => simp [hstop c rfl]
  unfold scanNatural
  simp only [htake, hdrop]
  rw [if_neg, Nat.ofDigitChars_ten_toDigits]
  rintro (hnil | ⟨hzero, hmore⟩ | hnot)
  · exact Nat.toDigits_ne_nil hnil
  · exact hmore (toDigits_of_head_zero hzero)
  · exact hnot hends

theorem scanInt_decimal (n : ℤ) {cs : List Char} (hends : Ends cs) :
    scanInt (decimal n ++ cs) = some (n, cs) := by
  unfold decimal
  split
  · show ((scanNatural (Nat.toDigits 10 n.natAbs ++ cs)).map fun p => (-(p.1 : ℤ), p.2)) = _
    rw [scanNatural_toDigits _ hends]
    have habs : -(n.natAbs : ℤ) = n := by omega
    simp only [Option.map_some, habs]
  · have hminus : ∀ rest, Nat.toDigits 10 n.natAbs ++ cs ≠ '-' :: rest := by
      intro rest heq
      obtain ⟨c, ds, hds⟩ := List.exists_cons_of_ne_nil (Nat.toDigits_ne_nil (b := 10) (n := n.natAbs))
      have hc : c.isDigit = true := isDigit_of_mem_toDigits (hds ▸ List.mem_cons_self)
      rw [hds, List.cons_append] at heq
      rw [(List.cons.inj heq).1] at hc
      cases hc
    rw [scanInt.eq_2 _ hminus, scanNatural_toDigits _ hends]
    have habs : (n.natAbs : ℤ) = n := by omega
    simp only [Option.map_some, habs]

/-! ## Values -/

def isWhitespace (c : Char) : Bool := c = ' ' || c = '\t' || c = '\n' || c = '\r'

def skip (cs : List Char) : List Char := cs.dropWhile isWhitespace

/-- The text begins with a word. -/
def scanWord (word : List Char) (v : Json) (cs : List Char) : Option (Json × List Char) :=
  if word.isPrefixOf cs then some (v, cs.drop word.length) else none

def scanAtom (cs : List Char) : Option (Json × List Char) :=
  scanWord "null".toList null cs <|> scanWord "true".toList (bool true) cs <|>
    scanWord "false".toList (bool false) cs <|> (scanInt cs).map fun p => (int p.1, p.2)

mutual

/-- A value, and the text behind it. -/
def scanValue : ℕ → List Char → Option (Json × List Char)
  | 0, _ => none
  | _ + 1, [] => none
  | fuel + 1, c :: cs =>
      if c = quote then (scanString cs).map fun p => (str p.1, p.2)
      else if c = '[' then
        if (skip cs).head? = some ']' then some (arr [], (skip cs).tail)
        else (scanItems fuel (skip cs)).map fun p => (arr p.1, p.2)
      else if c = '{' then
        if (skip cs).head? = some '}' then some (obj [], (skip cs).tail)
        else (scanFields fuel (skip cs)).map fun p => (obj p.1, p.2)
      else scanAtom (c :: cs)

/-- The items of a list up to its closing bracket. -/
def scanItems : ℕ → List Char → Option (List Json × List Char)
  | 0, _ => none
  | fuel + 1, cs =>
      (scanValue fuel cs).bind fun p =>
        match skip p.2 with
        | ']' :: rest => some ([p.1], rest)
        | ',' :: rest => (scanItems fuel (skip rest)).map fun q => (p.1 :: q.1, q.2)
        | _ => none

/-- The fields of an object up to its closing brace. -/
def scanFields : ℕ → List Char → Option (List (String × Json) × List Char)
  | 0, _ => none
  | _ + 1, [] => none
  | fuel + 1, c :: cs =>
      if c = quote then
        (scanString cs).bind fun k =>
          match skip k.2 with
          | ':' :: rest =>
              (scanValue fuel (skip rest)).bind fun p =>
                match skip p.2 with
                | '}' :: rest => some ([(k.1, p.1)], rest)
                | ',' :: rest =>
                    (scanFields fuel (skip rest)).map fun q => ((k.1, p.1) :: q.1, q.2)
                | _ => none
          | _ => none
      else none

end

/-- `json.loads` of a text. -/
def loads (cs : List Char) : Option Json :=
  (scanValue (cs.length + 1) (skip cs)).bind fun p => if skip p.2 = [] then some p.1 else none

mutual

/-- `json.dumps` -/
def dumps : Json → List Char
  | null => "null".toList
  | bool true => "true".toList
  | bool false => "false".toList
  | int n => decimal n
  | str s => dumpsString s
  | arr [] => "[]".toList
  | arr (v :: vs) => '[' :: (dumps v ++ dumpsItems vs)
  | obj [] => ['{', '}']
  | obj ((k, v) :: fs) => '{' :: (dumpsString k ++ ':' :: ' ' :: (dumps v ++ dumpsFields fs))

/-- The items behind the first one, and the closing bracket. -/
def dumpsItems : List Json → List Char
  | [] => [']']
  | v :: vs => ',' :: ' ' :: (dumps v ++ dumpsItems vs)

/-- The fields behind the first one, and the closing brace. -/
def dumpsFields : List (String × Json) → List Char
  | [] => ['}']
  | (k, v) :: fs => ',' :: ' ' :: (dumpsString k ++ ':' :: ' ' :: (dumps v ++ dumpsFields fs))

end

/-! ## What is written is read back -/

theorem ends_cons {c : Char} {cs : List Char} (h : Ends [c]) : Ends (c :: cs) :=
  fun d hd => h d hd

theorem ends_dumpsItems (vs : List Json) (cs : List Char) : Ends (dumpsItems vs ++ cs) := by
  cases vs with
  | nil => exact ends_cons (by decide)
  | cons v vs => exact ends_cons (by decide)

theorem ends_dumpsFields (fs : List (String × Json)) (cs : List Char) :
    Ends (dumpsFields fs ++ cs) := by
  cases fs with
  | nil => exact ends_cons (by decide)
  | cons f fs => exact ends_cons (by decide)

/-- The first character of a written value. -/
theorem dumps_head (v : Json) :
    ∃ c cs, dumps v = c :: cs ∧ isWhitespace c = false ∧ c ≠ ']' ∧ c ≠ '}' := by
  cases v with
  | null => exact ⟨_, _, rfl, by decide⟩
  | bool b => cases b <;> exact ⟨_, _, rfl, by decide⟩
  | int n =>
      show ∃ c cs, decimal n = c :: cs ∧ _
      unfold decimal
      split
      · exact ⟨_, _, rfl, by decide⟩
      · obtain ⟨c, cs, hcs⟩ := List.exists_cons_of_ne_nil
          (Nat.toDigits_ne_nil (b := 10) (n := n.natAbs))
        have hdigit : c.isDigit = true := isDigit_of_mem_toDigits (hcs ▸ List.mem_cons_self)
        refine ⟨c, cs, hcs, ?_, ?_, ?_⟩
        · cases hspace : isWhitespace c with
          | false => rfl
          | true =>
              simp only [isWhitespace, Bool.or_eq_true, decide_eq_true_eq] at hspace
              rcases hspace with ((rfl | rfl) | rfl) | rfl <;> cases hdigit
        · rintro rfl
          cases hdigit
        · rintro rfl
          cases hdigit
  | str s => exact ⟨_, _, rfl, by decide⟩
  | arr items => cases items <;> exact ⟨_, _, rfl, by decide⟩
  | obj fields =>
      cases fields with
      | nil => exact ⟨_, _, rfl, by decide⟩
      | cons f fs => exact ⟨_, _, rfl, by decide⟩

theorem skip_cons {c : Char} {cs : List Char} (hc : isWhitespace c = false) :
    skip (c :: cs) = c :: cs := by
  simp [skip, hc]

theorem skip_space (cs : List Char) : skip (' ' :: cs) = skip cs := by
  simp [skip, isWhitespace]

theorem skip_dumps (v : Json) (cs : List Char) : skip (dumps v ++ cs) = dumps v ++ cs := by
  obtain ⟨c, ds, hds, hspace, -⟩ := dumps_head v
  rw [hds]
  exact skip_cons hspace

/-- The text behind an item begins with a bracket or a comma. -/
theorem skip_dumpsItems (vs : List Json) (cs : List Char) :
    skip (dumpsItems vs ++ cs) = dumpsItems vs ++ cs := by
  cases vs with
  | nil => exact skip_cons (by decide)
  | cons v vs => exact skip_cons (by decide)

theorem skip_dumpsFields (fs : List (String × Json)) (cs : List Char) :
    skip (dumpsFields fs ++ cs) = dumpsFields fs ++ cs := by
  cases fs with
  | nil => exact skip_cons (by decide)
  | cons f fs => exact skip_cons (by decide)

theorem length_dumpsItems_pos (vs : List Json) : 0 < (dumpsItems vs).length := by
  cases vs <;> simp [dumpsItems]

theorem length_dumpsFields_pos (fs : List (String × Json)) : 0 < (dumpsFields fs).length := by
  cases fs <;> simp [dumpsFields]

theorem scanString_dumpsString (s : String) (cs : List Char) :
    ∃ body, dumpsString s ++ cs = quote :: body ∧ scanString body = some (s, cs) := by
  refine ⟨s.toList.flatMap escape ++ quote :: cs, by simp [dumpsString], ?_⟩
  rw [scanString_flatMap, String.ofList_toList]

theorem scanValue_atom {c : Char} {cs rest : List Char} {v : Json} {fuel : ℕ}
    (hquote : c ≠ quote) (hbracket : c ≠ '[') (hbrace : c ≠ '{')
    (h : scanAtom (c :: cs) = some (v, rest)) : scanValue (fuel + 1) (c :: cs) = some (v, rest) := by
  rw [scanValue, if_neg hquote, if_neg hbracket, if_neg hbrace, h]

theorem scanAtom_decimal (n : ℤ) {cs : List Char} (hends : Ends cs) :
    scanAtom (decimal n ++ cs) = some (int n, cs) := by
  have hword : ∀ (c : Char) (ds : List Char) (v : Json), c.isDigit = false → c ≠ '-' →
      scanWord (c :: ds) v (decimal n ++ cs) = none := by
    intro c ds v hdigit hminus
    obtain ⟨d, es, hes, hd⟩ := decimal_head n
    have hne : (c == d) = false := by
      rw [beq_eq_false_iff_ne]
      rintro rfl
      rcases hd with rfl | hd
      · exact hminus rfl
      · rw [hdigit] at hd
        cases hd
    rw [hes, scanWord, List.cons_append, List.isPrefixOf_cons_cons, hne]
    rfl
  have hnull := hword 'n' "ull".toList null (by decide) (by decide)
  have htrue := hword 't' "rue".toList (bool true) (by decide) (by decide)
  have hfalse := hword 'f' "alse".toList (bool false) (by decide) (by decide)
  show (scanWord ('n' :: "ull".toList) null _ <|> scanWord ('t' :: "rue".toList) (bool true) _ <|>
    scanWord ('f' :: "alse".toList) (bool false) _ <|> _) = _
  rw [hnull, htrue, hfalse, scanInt_decimal n hends]
  rfl

mutual

theorem scanValue_dumps : ∀ (v : Json) (fuel : ℕ) (cs : List Char), (dumps v).length ≤ fuel →
    Ends cs → scanValue fuel (dumps v ++ cs) = some (v, cs)
  | v, 0, cs, hfuel, _ => by
      obtain ⟨c, ds, hds, -⟩ := dumps_head v
      rw [hds] at hfuel
      simp at hfuel
  | null, fuel + 1, cs, _, _ => by
      refine scanValue_atom (by decide) (by decide) (by decide) ?_
      rfl
  | bool true, fuel + 1, cs, _, _ => by
      refine scanValue_atom (by decide) (by decide) (by decide) ?_
      rfl
  | bool false, fuel + 1, cs, _, _ => by
      refine scanValue_atom (by decide) (by decide) (by decide) ?_
      rfl
  | int n, fuel + 1, cs, _, hends => by
      have hatom := scanAtom_decimal n hends
      obtain ⟨c, ds, hds, hc⟩ := decimal_head n
      show scanValue (fuel + 1) (decimal n ++ cs) = _
      rw [hds] at hatom ⊢
      refine scanValue_atom ?_ ?_ ?_ hatom
      all_goals
        rintro rfl
        rcases hc with hc | hc
        · exact absurd hc (by decide)
        · exact absurd hc (by decide)
  | str s, fuel + 1, cs, _, _ => by
      obtain ⟨body, hbody, hscan⟩ := scanString_dumpsString s cs
      show scanValue (fuel + 1) (dumpsString s ++ cs) = _
      rw [hbody, scanValue, if_pos rfl, hscan]
      rfl
  | arr [], fuel + 1, cs, _, _ => by
      show scanValue (fuel + 1) ('[' :: ']' :: cs) = _
      rw [scanValue, if_neg (by decide), if_pos rfl, skip_cons (by decide)]
      rfl
  | arr (v :: vs), fuel + 1, cs, hfuel, _ => by
      have hitems := scanItems_dumps v vs fuel cs (by
        simp only [dumps, List.length_cons, List.length_append] at hfuel
        omega)
      obtain ⟨c, ds, hds, hspace, hbracket, -⟩ := dumps_head v
      have hskip := skip_dumps v (dumpsItems vs ++ cs)
      show scanValue (fuel + 1) ('[' :: ((dumps v ++ dumpsItems vs) ++ cs)) = _
      rw [List.append_assoc, scanValue, if_neg (by decide), if_pos rfl, hskip, if_neg, hitems]
      · rfl
      · rw [hds]
        intro h
        exact hbracket (Option.some.inj h)
  | obj [], fuel + 1, cs, _, _ => by
      show scanValue (fuel + 1) ('{' :: '}' :: cs) = _
      rw [scanValue, if_neg (by decide), if_neg (by decide), if_pos rfl, skip_cons (by decide)]
      rfl
  | obj ((k, v) :: fs), fuel + 1, cs, hfuel, _ => by
      have hfields := scanFields_dumps k v fs fuel cs (by
        simp only [dumps, List.length_cons, List.length_append] at hfuel
        omega)
      obtain ⟨body, hbody, -⟩ := scanString_dumpsString k (':' :: ' ' :: (dumps v ++ dumpsFields fs ++ cs))
      show scanValue (fuel + 1)
        ('{' :: ((dumpsString k ++ ':' :: ' ' :: (dumps v ++ dumpsFields fs)) ++ cs)) = _
      simp only [List.append_assoc, List.cons_append] at hbody hfields ⊢
      rw [hbody] at hfields ⊢
      rw [scanValue, if_neg (by decide), if_neg (by decide), if_pos rfl, skip_cons (by decide),
        List.head?_cons, if_neg (by decide), hfields]
      rfl

theorem scanItems_dumps : ∀ (v : Json) (vs : List Json) (fuel : ℕ) (cs : List Char),
    (dumps v).length + (dumpsItems vs).length ≤ fuel →
    scanItems fuel (dumps v ++ (dumpsItems vs ++ cs)) = some (v :: vs, cs)
  | v, vs, 0, cs, hfuel => by
      have hpos := length_dumpsItems_pos vs
      omega
  | v, [], fuel + 1, cs, hfuel => by
      have hvalue := scanValue_dumps v fuel (dumpsItems [] ++ cs) (by
        simp only [dumpsItems, List.length_cons] at hfuel
        omega) (ends_dumpsItems [] cs)
      rw [scanItems, hvalue, Option.bind_some, skip_dumpsItems]
      rfl
  | v, w :: ws, fuel + 1, cs, hfuel => by
      simp only [dumpsItems, List.length_cons, List.length_append] at hfuel
      have hvalue := scanValue_dumps v fuel (dumpsItems (w :: ws) ++ cs) (by omega)
        (ends_dumpsItems _ cs)
      have hrest := scanItems_dumps w ws fuel cs (by omega)
      rw [scanItems, hvalue, Option.bind_some, skip_dumpsItems]
      show ((scanItems fuel (skip (' ' :: ((dumps w ++ dumpsItems ws) ++ cs)))).map _) = _
      rw [skip_space, List.append_assoc, skip_dumps, hrest]
      rfl

theorem scanFields_dumps : ∀ (k : String) (v : Json) (fs : List (String × Json)) (fuel : ℕ)
    (cs : List Char), (dumps v).length + (dumpsFields fs).length ≤ fuel →
    scanFields fuel (dumpsString k ++ ':' :: ' ' :: (dumps v ++ (dumpsFields fs ++ cs))) =
      some ((k, v) :: fs, cs)
  | k, v, fs, 0, cs, hfuel => by
      have hpos := length_dumpsFields_pos fs
      omega
  | k, v, [], fuel + 1, cs, hfuel => by
      have hvalue := scanValue_dumps v fuel (dumpsFields [] ++ cs) (by
        simp only [dumpsFields, List.length_cons] at hfuel
        omega) (ends_dumpsFields [] cs)
      obtain ⟨body, hbody, hkey⟩ := scanString_dumpsString k
        (':' :: ' ' :: (dumps v ++ (dumpsFields [] ++ cs)))
      rw [hbody, scanFields, if_pos rfl, hkey, Option.bind_some, skip_cons (by decide)]
      simp only [skip_space, skip_dumps, hvalue, Option.bind_some, skip_dumpsFields]
      rfl
  | k, v, (k', w) :: fs, fuel + 1, cs, hfuel => by
      simp only [dumpsFields, List.length_cons, List.length_append] at hfuel
      have hvalue := scanValue_dumps v fuel (dumpsFields ((k', w) :: fs) ++ cs) (by omega)
        (ends_dumpsFields _ cs)
      have hrest := scanFields_dumps k' w fs fuel cs (by omega)
      obtain ⟨body, hbody, hkey⟩ := scanString_dumpsString k
        (':' :: ' ' :: (dumps v ++ (dumpsFields ((k', w) :: fs) ++ cs)))
      obtain ⟨next, hnext, -⟩ := scanString_dumpsString k'
        (':' :: ' ' :: (dumps w ++ (dumpsFields fs ++ cs)))
      rw [hbody, scanFields, if_pos rfl, hkey, Option.bind_some, skip_cons (by decide)]
      simp only [skip_space, skip_dumps, hvalue, Option.bind_some, skip_dumpsFields]
      simp only [dumpsFields, List.cons_append, List.append_assoc, skip_space]
      rw [hnext, skip_cons (by decide), ← hnext, hrest]
      rfl

end

/-- A value that is written and read again is the same value. -/
theorem loads_dumps (v : Json) : loads (dumps v) = some v := by
  have hskip := skip_dumps v []
  have hvalue := scanValue_dumps v ((dumps v).length + 1) [] (Nat.le_succ _)
    (fun c hc => by cases hc)
  rw [List.append_nil] at hskip hvalue
  rw [loads, hskip, hvalue]
  rfl

end Json

end Text
