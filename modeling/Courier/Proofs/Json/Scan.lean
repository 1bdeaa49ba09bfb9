import Courier.Proofs.Json.Number

/-!
# The tokens of a value

The scanner reads the text of a value as its tokens, whatever comes after it. A double has a token if its digits
read back; all else has one in any case.
-/

namespace Courier

/-! ## Tokens -/

def Number.token? : Number → Option Token
  | nat n => some (.num (some (.nat n)))
  | negSucc n => some (.num (some (.negSucc n)))
  | float x =>
    if x.isFinite then (Numeral.ofChars? (Float.json x).toList).map fun n => .num n.value? else some .null

namespace Json

mutual

def tokens? : Json → Option (List Token)
  | null => some [.null]
  | bool b => some [.bool b]
  | num n => n.token?.map fun t => [t]
  | str s => some [.str (some s)]
  | arr [] => some [.bracketL, .bracketR]
  | arr (v :: rest) => do
    let first ← tokens? v
    let others ← itemTokens? rest
    return .bracketL :: (first ++ (others ++ [.bracketR]))
  | obj [] => some [.braceL, .braceR]
  | obj ((k, v) :: rest) => do
    let first ← tokens? v
    let others ← memberTokens? rest
    return .braceL :: .str (some k) :: .colon :: (first ++ (others ++ [.braceR]))

def itemTokens? : List Json → Option (List Token)
  | [] => some []
  | v :: rest => do
    let first ← tokens? v
    let others ← itemTokens? rest
    return .comma :: (first ++ others)

def memberTokens? : List (String × Json) → Option (List Token)
  | [] => some []
  | (k, v) :: rest => do
    let first ← tokens? v
    let others ← memberTokens? rest
    return .comma :: .str (some k) :: .colon :: (first ++ others)

end

end Json

namespace Token

variable {done : List Token} {rest : List Char}

/-- A number or a word is over before this. -/
def Ends (rest : List Char) : Prop := ∀ c ∈ rest.head?, inNumber c = false ∧ inWord c = false

theorem ends_cons {c : Char} (h : c ∈ [',', ':', ']', '}']) (rest : List Char) : Ends (c :: rest) := by
  intro d hd
  cases hd
  simp only [List.mem_cons, List.not_mem_nil, or_false] at h
  rcases h with rfl | rfl | rfl | rfl <;> decide

theorem scanFrom?_cons {m : Mode} {c : Char} {cs : List Char} {x : List Token × Mode}
    (h : step? done m c = some x) : scanFrom? done m (c :: cs) = scanFrom? x.1 x.2 cs := by
  simp only [scanFrom?, h]

/-! ## Numbers -/

theorem start?_numeric {c : Char} (h : (c.isDigit || c = '-') = true) : start? done c = some (done, .number [c]) := by
  have hne (d : Char) (hd : (d.isDigit || d = '-') = false) : c ≠ d := fun e => by rw [e, hd] at h; cases h
  simp only [start?, isBlank, hne ' ' rfl, hne '\t' rfl, hne '\n' rfl, hne '\r' rfl, hne '{' rfl, hne '}' rfl,
    hne '[' rfl, hne ']' rfl, hne ':' rfl, hne ',' rfl, hne '"' rfl, h]
  simp

theorem scan_inNumber (read : List Char) {cs : List Char} (h : ∀ c ∈ cs, inNumber c = true) :
    scanFrom? done (.number read) (cs ++ rest) = scanFrom? done (.number (cs.reverse ++ read)) rest := by
  induction cs generalizing read with
  | nil => rfl
  | cons c cs ih =>
    have hs : step? done (.number read) c = some (done, .number (c :: read)) := by simp [step?, h c]
    rw [List.cons_append, scanFrom?_cons hs, ih _ fun c hc => h c (List.mem_cons_of_mem _ hc)]
    simp

theorem scan_number_end (read : List Char) (hr : Ends rest) :
    scanFrom? done (.number read) rest =
      (Numeral.ofChars? read.reverse).bind fun n => scanFrom? (.num n.value? :: done) .between rest := by
  cases rest with
  | nil => cases h : Numeral.ofChars? read.reverse <;> simp [scanFrom?, finish?, h]
  | cons c rest =>
    have hc := (hr c rfl).1
    cases h : Numeral.ofChars? read.reverse <;> simp [scanFrom?, step?, hc, h]

theorem scan_numeric {cs : List Char} (hn : Numeric cs) (hr : Ends rest) :
    scanFrom? done .between (cs ++ rest) =
      (Numeral.ofChars? cs).bind fun n => scanFrom? (.num n.value? :: done) .between rest := by
  obtain ⟨c, cs, rfl, hc⟩ := hn.head
  rw [List.cons_append, scanFrom?_cons (m := .between) (start?_numeric hc),
    scan_inNumber [c] fun c hc => hn.chars c (List.mem_cons_of_mem _ hc), scan_number_end _ hr]
  simp

/-! ## Words -/

theorem scan_word_end (read : List Char) (hr : Ends rest) :
    scanFrom? done (.word read) rest =
      (ofWord? read.reverse).bind fun t => scanFrom? (t :: done) .between rest := by
  cases rest with
  | nil => cases h : ofWord? read.reverse <;> simp [scanFrom?, finish?, h]
  | cons c rest =>
    have hc := (hr c rfl).2
    cases h : ofWord? read.reverse <;> simp [scanFrom?, step?, hc, h]

theorem scan_inWord (read : List Char) {cs : List Char} (h : ∀ c ∈ cs, inWord c = true) :
    scanFrom? done (.word read) (cs ++ rest) = scanFrom? done (.word (cs.reverse ++ read)) rest := by
  induction cs generalizing read with
  | nil => rfl
  | cons c cs ih =>
    have hs : step? done (.word read) c = some (done, .word (c :: read)) := by simp [step?, h c]
    rw [List.cons_append, scanFrom?_cons hs, ih _ fun c hc => h c (List.mem_cons_of_mem _ hc)]
    simp

theorem scan_word {c : Char} {cs : List Char} (hs : start? done c = some (done, .word [c]))
    (h : ∀ c ∈ cs, inWord c = true) (hr : Ends rest) :
    scanFrom? done .between (c :: (cs ++ rest)) =
      (ofWord? (c :: cs)).bind fun t => scanFrom? (t :: done) .between rest := by
  rw [scanFrom?_cons (m := .between) hs, scan_inWord [c] h, scan_word_end _ hr]
  simp

theorem scan_null (hr : Ends rest) :
    scanFrom? done .between (['n', 'u', 'l', 'l'] ++ rest) = scanFrom? (.null :: done) .between rest :=
  scan_word rfl (List.all_eq_true.mp rfl) hr

theorem scan_bool (b : Bool) (hr : Ends rest) :
    scanFrom? done .between ((Json.bool b).render ++ rest) = scanFrom? (.bool b :: done) .between rest := by
  cases b with
  | true => exact scan_word rfl (List.all_eq_true.mp rfl) hr
  | false => exact scan_word rfl (List.all_eq_true.mp rfl) hr

theorem scan_num (n : Number) (hr : Ends rest) :
    scanFrom? done .between (n.render ++ rest) = n.token?.bind fun t => scanFrom? (t :: done) .between rest := by
  cases n with
  | nat n =>
    have hc : (toString n.toNat).toList = Nat.toDigits 10 n.toNat := by simp
    have ho : Numeral.ofChars? (Nat.toDigits 10 n.toNat) =
        some ⟨false, Numeral.values (Nat.toDigits 10 n.toNat), [], none⟩ := Numeral.ofChars?_toDigits n.toNat
    rw [Number.render, hc, scan_numeric (numeric_toDigits _) hr, ho, Option.bind_some,
      Numeral.value?_nat n.toNat_lt]
    simp [Number.token?]
  | negSucc k =>
    have hc : (toString (k.val + 1)).toList = Nat.toDigits 10 (k.val + 1) := by simp
    have ho : Numeral.ofChars? ('-' :: Nat.toDigits 10 (k.val + 1)) =
        some ⟨true, Numeral.values (Nat.toDigits 10 (k.val + 1)), [], none⟩ := Numeral.unsigned?_toDigits true _
    rw [Number.render, hc, scan_numeric (numeric_toDigits _).minus hr, ho, Option.bind_some, Numeral.value?_negSucc]
    rfl
  | float x =>
    rw [Number.render, Number.token?]
    split
    · next hx =>
      rw [scan_numeric (Float.json_numeric hx).1 hr]
      cases Numeral.ofChars? (Float.json x).toList <;> rfl
    · next hx =>
      rw [Float.json_infinite (by simpa using hx)]
      exact scan_null hr

/-! ## Text -/

def pieceOf (c : Char) : Piece :=
  if c = '"' ∨ c = '\\' ∨ c = '\x08' ∨ c = '\x0c' ∨ c = '\n' ∨ c = '\r' ∨ c = '\t' ∨ 0x20 ≤ c.toNat then .char c
  else .unit c.toNat

theorem scan_unit (read : List Piece) {n : Nat} (hn : n < 0x20) :
    scanFrom? done (.text read) ('\\' :: 'u' :: '0' :: '0' :: Hex.digit (n / 16) :: Hex.digit (n % 16) :: rest) =
      scanFrom? done (.text (.unit n :: read)) rest := by
  rw [scanFrom?_cons rfl, scanFrom?_cons rfl, scanFrom?_cons rfl, scanFrom?_cons rfl,
    scanFrom?_cons (x := (done, .unit read 1 (n / 16))) ?_, scanFrom?_cons (x := (done, .text (.unit n :: read))) ?_]
  · simp [step?, Hex.value?_digit (n % 16) (by omega)]
    omega
  · simp [step?, Hex.value?_digit (n / 16) (by omega)]

theorem scan_escape (read : List Piece) (c : Char) :
    scanFrom? done (.text read) (Json.escape c ++ rest) = scanFrom? done (.text (pieceOf c :: read)) rest := by
  unfold Json.escape
  split
  · next h => subst h; rfl
  split
  · next h => subst h; rfl
  split
  · next h => subst h; rfl
  split
  · next h => subst h; rfl
  split
  · next h => subst h; rfl
  split
  · next h => subst h; rfl
  split
  · next h => subst h; rfl
  split
  · next h =>
    have hp : pieceOf c = .unit c.toNat := by simp_all [pieceOf]
    rw [hp]
    exact scan_unit read h
  · next h₁ h₂ _ _ _ _ _ h =>
    have hp : pieceOf c = .char c := by simp [pieceOf, Nat.not_lt.mp h]
    rw [hp]
    exact scanFrom?_cons (x := (done, .text (.char c :: read))) (by simp [step?, h₁, h₂, h])

theorem scan_text (read : List Piece) (cs : List Char) :
    scanFrom? done (.text read) (cs.flatMap Json.escape ++ '"' :: rest) =
      scanFrom? (.str (Piece.text? (read.reverse ++ cs.map pieceOf)) :: done) .between rest := by
  induction cs generalizing read with
  | nil => simp [scanFrom?, step?]
  | cons c cs ih => rw [List.flatMap_cons, List.append_assoc, scan_escape, ih]; simp

theorem chars?_pieceOf (cs : List Char) : Piece.chars? (cs.map pieceOf) = some cs := by
  induction cs with
  | nil => rfl
  | cons c cs ih =>
    rw [List.map_cons]
    by_cases hc : ∃ d, pieceOf c = .char d
    · have hp : pieceOf c = .char c := by
        unfold pieceOf at hc ⊢
        split at hc <;> simp_all
      rw [hp, Piece.chars?, ih]
      rfl
    · -- what is spelled by its number is a control character, and so no half of a pair
      have hp : pieceOf c = .unit c.toNat ∧ c.toNat < 0x20 := by
        unfold pieceOf at hc ⊢
        split at hc
        · exact (hc ⟨_, rfl⟩).elim
        · next h =>
          rw [if_neg h]
          simp only [not_or] at h
          exact ⟨rfl, by omega⟩
      have hh : Piece.isHigh c.toNat = false := by simp [Piece.isHigh]; omega
      have hl : Piece.isLow c.toNat = false := by simp [Piece.isLow]; omega
      rw [hp.1]
      cases hcs : cs.map pieceOf with
      | nil =>
        rw [hcs] at ih
        simp [Piece.chars?, hh, hl, ← Option.some.inj ih]
      | cons p ps =>
        rw [hcs] at ih
        cases p with
        | char d => simpa [Piece.chars?, hh, hl] using ih
        | unit m => simp [Piece.chars?, hh, hl, ih]

theorem scan_quote (s : String) :
    scanFrom? done .between (Json.quote s ++ rest) = scanFrom? (.str (some s) :: done) .between rest := by
  rw [Json.quote, List.cons_append, scanFrom?_cons (x := (done, .text [])) (by simp [step?, start?, isBlank]),
    List.append_assoc, List.singleton_append, scan_text]
  simp [Piece.text?, chars?_pieceOf]

/-! ## Values -/

theorem scan_punctuation {c : Char} {t : Token} (h : start? done c = some (t :: done, .between)) :
    scanFrom? done .between (c :: rest) = scanFrom? (t :: done) .between rest :=
  scanFrom?_cons (m := .between) h

theorem scan_colon : scanFrom? done .between (':' :: rest) = scanFrom? (.colon :: done) .between rest :=
  scan_punctuation rfl

theorem scan_comma : scanFrom? done .between (',' :: rest) = scanFrom? (.comma :: done) .between rest :=
  scan_punctuation rfl

theorem ends_items (vs : List Json) (rest : List Char) : Ends (Json.renderItems vs ++ ']' :: rest) := by
  cases vs with
  | nil => exact ends_cons (by decide) _
  | cons v vs => exact ends_cons (by decide) _

theorem ends_members (ms : List (String × Json)) (rest : List Char) : Ends (Json.renderMembers ms ++ '}' :: rest) := by
  cases ms with
  | nil => exact ends_cons (by decide) _
  | cons m ms => exact ends_cons (by decide) _

mutual

/-- The text of a value is scanned as its tokens. -/
theorem scan_render (done : List Token) {rest : List Char} (hr : Ends rest) : ∀ v : Json,
    scanFrom? done .between (v.render ++ rest) =
      v.tokens?.bind fun ts => scanFrom? (ts.reverse ++ done) .between rest
  | .null => scan_null hr
  | .bool b => scan_bool b hr
  | .num n => by
    rw [Json.render, scan_num n hr, Json.tokens?]
    cases n.token? <;> rfl
  | .str s => scan_quote s
  | .arr [] => rfl
  | .arr (v :: vs) => by
    have hi := fun done => scan_items done rest vs
    rw [Json.render, List.cons_append, scan_punctuation (t := .bracketL) rfl, List.append_assoc, List.append_assoc,
      List.singleton_append, scan_render _ (ends_items vs rest) v, Json.tokens?]
    cases v.tokens? with
    | none => rfl
    | some first =>
      simp only [Option.bind_some, hi]
      cases Json.itemTokens? vs with
      | none => rfl
      | some others => simp
  | .obj [] => rfl
  | .obj ((k, v) :: ms) => by
    have hi := fun done => scan_members done rest ms
    rw [Json.render, List.cons_append, scan_punctuation (t := .braceL) rfl, List.append_assoc, scan_quote,
      List.cons_append, scan_colon, List.append_assoc, List.append_assoc, List.singleton_append,
      scan_render _ (ends_members ms rest) v, Json.tokens?]
    cases v.tokens? with
    | none => rfl
    | some first =>
      simp only [Option.bind_some, hi]
      cases Json.memberTokens? ms with
      | none => rfl
      | some others => simp

theorem scan_items (done : List Token) (rest : List Char) : ∀ vs : List Json,
    scanFrom? done .between (Json.renderItems vs ++ ']' :: rest) =
      (Json.itemTokens? vs).bind fun ts => scanFrom? (.bracketR :: (ts.reverse ++ done)) .between rest
  | [] => rfl
  | v :: vs => by
    have hi := fun done => scan_items done rest vs
    rw [Json.renderItems, List.cons_append, scan_comma, List.append_assoc, scan_render _ (ends_items vs rest) v,
      Json.itemTokens?]
    cases v.tokens? with
    | none => rfl
    | some first =>
      simp only [Option.bind_some, hi]
      cases Json.itemTokens? vs with
      | none => rfl
      | some others => simp

theorem scan_members (done : List Token) (rest : List Char) : ∀ ms : List (String × Json),
    scanFrom? done .between (Json.renderMembers ms ++ '}' :: rest) =
      (Json.memberTokens? ms).bind fun ts => scanFrom? (.braceR :: (ts.reverse ++ done)) .between rest
  | [] => rfl
  | (k, v) :: ms => by
    have hi := fun done => scan_members done rest ms
    rw [Json.renderMembers, List.cons_append, scan_comma, List.append_assoc, scan_quote, List.cons_append, scan_colon,
      List.append_assoc, scan_render _ (ends_members ms rest) v, Json.memberTokens?]
    cases v.tokens? with
    | none => rfl
    | some first =>
      simp only [Option.bind_some, hi]
      cases Json.memberTokens? ms with
      | none => rfl
      | some others => simp

end

theorem scan?_render (v : Json) : scan? v.render = v.tokens? := by
  have h := scan_render [] (show Ends [] from nofun) v
  rw [List.append_nil] at h
  rw [scan?, h]
  cases v.tokens? with
  | none => rfl
  | some ts => simp [scanFrom?, finish?]

end Token

end Courier
