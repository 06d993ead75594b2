import Mathlib.Data.List.TakeDrop
import PullNotices.Proofs.Json.Grammar
import PullNotices.Proofs.Text.Search

/-! The reader reads every JSON text, and reads it as what it denotes. Strings are read piece by piece
and numbers part by part; values follow by induction on the fuel of the reader, which is enough when it
is the length of the text. -/
namespace PullNotices.Json
open Text

theorem IsGap.blank {gap : Text} (blank : IsGap gap) : ∀ c ∈ gap, isSpace c = true := by
  have all : spaces.all isSpace = true := by decide
  exact fun c member => List.all_eq_true.mp all c (blank c member)

theorem skipSpace_gap {gap t : Text} (blank : IsGap gap) (solid : ∃ c more, t = c :: more ∧ isSpace c = false) :
    skipSpace (gap ++ t) = t := by
  obtain ⟨c,more,rfl,solid⟩ := solid
  unfold skipSpace
  rw [List.dropWhile_append_of_pos blank.blank]
  simp [solid]

theorem after?_cons_ne {a b : CodePoint} (start t : Text) (other : a ≠ b) :
    after? (a :: start) (b :: t) = none := by simp [after?,other]

theorem hexValue?_eq_some_iff {c : CodePoint} {n : Nat} :
    c.hexValue? = some n ↔ n < 16 ∧ c.toLower = CodePoint.hexDigit n := by
  have lowered : c.toLower.hexValue? = c.hexValue? := by
    unfold CodePoint.toLower CodePoint.hexValue? CodePoint.isDigit
    split_ifs <;> simp_all <;> omega
  constructor
  · intro value
    have small : c.val < 128 := by
      unfold CodePoint.hexValue? CodePoint.isDigit at value
      split_ifs at value <;> simp_all <;> omega
    have all : ∀ c : Fin 128, ∀ n ∈ CodePoint.hexValue? (c.castLE (by decide)), n < 16 ∧
        CodePoint.toLower (c.castLE (by decide)) = CodePoint.hexDigit n := by decide
    exact all ⟨c.val,small⟩ n value
  · rintro ⟨bound,same⟩
    rw [← lowered,same,hexValue?_hexDigit n bound]

theorem unit?_eq_some_iff {a b c d u : CodePoint} : unit? a b c d = some u ↔
    u.val < 0x10000 ∧ [a,b,c,d].map CodePoint.toLower = ofHex 4 u.val := by
  have four : ofHex 4 u.val = [CodePoint.hexDigit (u.val / 16 / 16 / 16 % 16),CodePoint.hexDigit (u.val / 16 / 16 % 16),
      CodePoint.hexDigit (u.val / 16 % 16),CodePoint.hexDigit (u.val % 16)] := rfl
  rw [four]
  simp only [unit?,Option.bind_eq_bind,Option.bind_eq_some_iff,hexValue?_eq_some_iff,List.map_cons,List.map_nil,
    List.cons.injEq,and_true]
  constructor
  · rintro ⟨i,⟨hi,first⟩,j,⟨hj,second⟩,k,⟨hk,third⟩,l,⟨hl,fourth⟩,read⟩
    rw [dif_pos (by omega)] at read
    cases read
    rw [first,second,third,fourth]
    refine ⟨by dsimp only; omega,?_,?_,?_,?_⟩ <;> congr 1 <;> dsimp only <;> omega
  · rintro ⟨bound,first,second,third,fourth⟩
    refine ⟨_,⟨by omega,first⟩,_,⟨by omega,second⟩,_,⟨by omega,third⟩,_,⟨by omega,fourth⟩,?_⟩
    rw [dif_pos (by omega)]
    exact congrArg some (Fin.ext (by dsimp only; omega))

theorem isUnit_iff {e : Text} {u : CodePoint} :
    IsUnit e u ↔ ∃ a b c d, e = [backslash,CodePoint.ofChar 'u',a,b,c,d] ∧ unit? a b c d = some u := by
  constructor
  · rintro ⟨bound,digits,rfl,lowered⟩
    have four : digits.length = 4 := List.length_map _ ▸ congrArg List.length lowered
    match digits,four with
    | [a,b,c,d],_ => exact ⟨a,b,c,d,rfl,unit?_eq_some_iff.mpr ⟨bound,lowered⟩⟩
  · rintro ⟨a,b,c,d,rfl,value⟩
    obtain ⟨bound,lowered⟩ := unit?_eq_some_iff.mp value
    exact ⟨bound,[a,b,c,d],rfl,lowered⟩

theorem shortEscape?_eq_some_iff {letter c : CodePoint} :
    shortEscape? letter = some c ↔ (letter,c) ∈ shortEscapes := by
  constructor
  · intro escape
    unfold shortEscape? at escape
    split_ifs at escape with itself <;> cases escape
    · rcases itself with rfl | rfl | rfl <;> decide
    all_goals
      subst letter
      decide
  · intro listed
    have all : shortEscapes.all (fun pair => shortEscape? pair.1 = some pair.2) = true := by decide
    simpa using List.all_eq_true.mp all _ listed

/-- No short escape has the letter of a unit. -/
theorem ne_unit_of_listed {letter c : CodePoint} (listed : (letter,c) ∈ shortEscapes) : letter ≠ CodePoint.ofChar 'u' := by
  have all : shortEscapes.all (fun pair => pair.1 ≠ CodePoint.ofChar 'u') = true := by decide
  simpa using List.all_eq_true.mp all _ listed

/-- Between quotes the text is put together from these pieces. -/
inductive Pieces : Text → List Piece → Prop
  | nil : Pieces [] []
  | raw {c : CodePoint} {w : Text} {ps : List Piece} (shown : 0x20 ≤ c.val) (noQuote : c ≠ doubleQuote)
      (noEscape : c ≠ backslash) (rest : Pieces w ps) : Pieces (c :: w) (.plain c :: ps)
  | short {letter c : CodePoint} {w : Text} {ps : List Piece} (listed : (letter,c) ∈ shortEscapes)
      (rest : Pieces w ps) : Pieces (backslash :: letter :: w) (.plain c :: ps)
  | unit {e w : Text} {u : CodePoint} {ps : List Piece} (escape : IsUnit e u) (rest : Pieces w ps) :
      Pieces (e ++ w) (.unit u :: ps)

theorem Pieces.read {w : Text} {ps : List Piece} (pieces : Pieces w ps) (whole rest : Text) :
    readPieces whole (w ++ doubleQuote :: rest) = .ok (ps,rest) := by
  induction pieces with
  | nil =>
    rw [List.nil_append,readPieces.eq_def]
    simp
  | @raw c w ps shown noQuote noEscape _ ih =>
    rw [List.cons_append,readPieces_itself whole _ noQuote noEscape shown,ih]
    rfl
  | @short letter c w ps listed _ ih =>
    rw [List.cons_append,List.cons_append,
      readPieces_letter whole _ letter c (shortEscape?_eq_some_iff.mpr listed) (ne_unit_of_listed listed),ih]
    rfl
  | @unit e w u ps escape _ ih =>
    obtain ⟨a,b,c,d,rfl,value⟩ := isUnit_iff.mp escape
    obtain ⟨next,more,shape⟩ : ∃ next more, w ++ doubleQuote :: rest = next :: more := by
      cases w <;> exact ⟨_,_,rfl⟩
    rw [shape] at ih
    rw [List.append_assoc,shape]
    change readPieces whole (backslash :: CodePoint.ofChar 'u' :: a :: b :: c :: d :: next :: more) = _
    rw [readPieces.eq_def]
    simp only [(by decide : backslash ≠ doubleQuote),if_false,if_true,value,ih]
    rfl

/-- A unit comes first just where its escape does. -/
theorem Pieces.unit_iff {w : Text} {ps : List Piece} (pieces : Pieces w ps) {v : CodePoint} :
    (∃ f more, IsUnit f v ∧ w = f ++ more) ↔ ∃ others, ps = .unit v :: others := by
  constructor
  · rintro ⟨f,more,escape,rfl⟩
    obtain ⟨a,b,c,d,rfl,value⟩ := isUnit_iff.mp escape
    generalize shape : [backslash,CodePoint.ofChar 'u',a,b,c,d] ++ more = w at pieces
    cases pieces with
    | nil => cases shape
    | raw _ _ noEscape =>
      cases shape
      exact absurd rfl noEscape
    | short listed =>
      cases shape
      exact absurd rfl (ne_unit_of_listed listed)
    | unit other =>
      obtain ⟨a',b',c',d',rfl,also⟩ := isUnit_iff.mp other
      cases shape
      rw [value] at also
      cases also
      exact ⟨_,rfl⟩
  · rintro ⟨others,rfl⟩
    cases pieces with
    | unit escape => exact ⟨_,_,escape,rfl⟩

theorem Characters.pieces {w t : Text} (spelled : Characters w t) : ∃ ps, Pieces w ps ∧ joinPieces ps = t := by
  induction spelled with
  | nil => exact ⟨[],.nil,rfl⟩
  | raw shown noQuote noEscape _ ih =>
    obtain ⟨ps,pieces,rfl⟩ := ih
    exact ⟨_,.raw shown noQuote noEscape pieces,by rw [joinPieces]⟩
  | short listed _ ih =>
    obtain ⟨ps,pieces,rfl⟩ := ih
    exact ⟨_,.short listed pieces,by rw [joinPieces]⟩
  | @unit e w t u escape alone _ ih =>
    obtain ⟨ps,pieces,rfl⟩ := ih
    refine ⟨_,.unit escape pieces,joinPieces_unit ?_⟩
    rintro v others same ⟨high,low⟩
    obtain ⟨f,more,unit,here⟩ := pieces.unit_iff.mpr ⟨others,same⟩
    exact alone high f v more unit low here
  | @pair e f w t c astral high low _ ih =>
    obtain ⟨ps,pieces,rfl⟩ := ih
    refine ⟨_,.unit high (.unit low pieces),?_⟩
    rw [joinPieces.eq_def]
    simp only [isHighSurrogate_highUnit c,isLowSurrogate_lowUnit c,Bool.and_self,if_true,
      joinSurrogates_units (not_lt.mpr astral)]

theorem Characters.read {w t : Text} (spelled : Characters w t) (whole rest : Text) :
    readString whole (w ++ doubleQuote :: rest) = .ok (t,rest) := by
  obtain ⟨ps,pieces,joined⟩ := spelled.pieces
  rw [readString,pieces.read,← joined]
  rfl

/-- What separates values and closes arrays and objects. -/
def delimiters : Text := ",]\x7d"

/-- What may stand behind a value: space, a delimiter or nothing. -/
def Ends (rest : Text) : Prop := ∀ c ∈ rest.head?, c ∈ spaces ∨ c ∈ delimiters

/-- The text does not go on with more of a number. -/
def Apart (rest : Text) : Prop := ∀ c ∈ rest.head?, c.isDigit = false ∧ c ∉ ofString ".eE"

theorem Ends.apart {rest : Text} (ends : Ends rest) : Apart rest := by
  have all : (spaces ++ delimiters).all (fun c => !c.isDigit && c ∉ ofString ".eE") = true := by decide
  intro c here
  simpa using List.all_eq_true.mp all c (List.mem_append.mpr (ends c here))

theorem span_digits {digits rest : Text} (all : ∀ c ∈ digits, c.isDigit = true)
    (apart : ∀ c ∈ rest.head?, c.isDigit = false) : (digits ++ rest).span CodePoint.isDigit = (digits,rest) :=
  span_append_stop all apart

theorem ne_of_isDigit {c other : CodePoint} (digit : c.isDigit = true) (none : other.isDigit = false) :
    other ≠ c := by
  rintro rfl
  rw [digit] at none
  cases none

namespace Exponent

theorem read {e : Exponent} (proper : e.IsProper) {rest : Text} (apart : Apart rest) :
    readExponent? (e.written ++ rest) = some (e.value,rest) := by
  obtain ⟨letter,sign,digits⟩ := e
  obtain ⟨marked,signed,all,nonempty⟩ := proper
  dsimp only at marked signed all nonempty
  have marked : letter = CodePoint.ofChar 'e' ∨ letter = CodePoint.ofChar 'E' := by simpa [ofString] using marked
  have spanned := span_digits all fun c here => (apart c here).1
  obtain ⟨d,ds,rfl⟩ := List.exists_cons_of_ne_nil nonempty
  have noMinus : after? (ofString "-") (d :: ds ++ rest) = none :=
    after?_cons_ne [] _ (ne_of_isDigit (all d (by simp)) (by decide))
  have noPlus : after? (ofString "+") (d :: ds ++ rest) = none :=
    after?_cons_ne [] _ (ne_of_isDigit (all d (by simp)) (by decide))
  unfold written readExponent?
  rw [List.cons_append]
  dsimp only
  rw [if_pos marked,List.append_assoc]
  rcases signed with rfl | rfl | rfl
  · rw [List.nil_append,noMinus,noPlus]
    simp only [Option.getD_none,spanned]
    rfl
  · have other : after? (ofString "-") (ofString "+" ++ (d :: ds ++ rest)) = none := rfl
    rw [other,after?_append]
    simp only [Option.getD_some,spanned]
    rfl
  · rw [after?_append]
    simp only [spanned]
    rfl

end Exponent

namespace Numeral

variable {n : Numeral} {rest : Text}

theorem read_whole (proper : n.IsProper) (apart : ∀ c ∈ rest.head?, c.isDigit = false) :
    readWhole? (n.whole ++ rest) = some (n.whole,rest) := by
  rcases proper.leading with zero | other
  · rw [zero]
    rfl
  · obtain ⟨c,whole,shape⟩ := List.exists_cons_of_ne_nil proper.nonempty
    have digits := proper.digits
    rw [shape] at digits other ⊢
    have spanned := span_digits digits apart
    rw [List.cons_append] at spanned ⊢
    have ne : c ≠ CodePoint.ofChar '0' := by simpa using other
    rw [readWhole?,if_neg ne,if_pos (digits c (by simp)),spanned]

theorem read_point (proper : n.IsProper) (apart : ∀ c ∈ rest.head?, c.isDigit = false ∧ c ≠ CodePoint.ofChar '.') :
    readFraction (n.point ++ rest) = (n.fraction,rest) := by
  by_cases none : n.fraction = []
  · have noPoint : after? (ofString ".") rest = Option.none := by
      cases rest with
      | nil => rfl
      | cons c rest => exact after?_cons_ne [] rest (apart c rfl).2.symm
    rw [point,if_pos none,List.nil_append,readFraction,noPoint,none]
  · obtain ⟨c,digits,shape⟩ := List.exists_cons_of_ne_nil none
    have spanned := span_digits proper.fraction fun c here => (apart c here).1
    rw [point,if_neg none,List.append_assoc,readFraction,after?_append]
    rw [shape] at spanned ⊢
    dsimp only
    rw [spanned]

theorem read_power (proper : n.IsProper) (apart : Apart rest) :
    readExponent? (n.power ++ rest) = n.exponent.map fun e => (e.value,rest) := by
  unfold power
  cases exponent : n.exponent with
  | none =>
    change readExponent? rest = none
    cases rest with
    | nil => rfl
    | cons c rest =>
      have other := (apart c rfl).2
      have other : ¬ (c = CodePoint.ofChar 'e' ∨ c = CodePoint.ofChar 'E') := by
        rintro (rfl | rfl) <;> exact other (by decide)
      exact if_neg other
  | some e => exact Exponent.read (proper.exponent e exponent) apart

theorem power_head (proper : n.IsProper) (apart : Apart rest) :
    ∀ c ∈ (n.power ++ rest).head?, c.isDigit = false ∧ c ≠ CodePoint.ofChar '.' := by
  unfold power
  cases exponent : n.exponent with
  | none =>
    intro c here
    obtain ⟨digit,other⟩ := apart c here
    refine ⟨digit,?_⟩
    rintro rfl
    exact other (by decide)
  | some e =>
    have all : (ofString "eE").all (fun c => !c.isDigit && c ≠ CodePoint.ofChar '.') = true := by decide
    intro c here
    have same : e.letter = c := Option.some.inj here
    subst same
    simpa using List.all_eq_true.mp all _ (proper.exponent e exponent).letter

theorem point_head (proper : n.IsProper) (apart : Apart rest) :
    ∀ c ∈ (n.point ++ (n.power ++ rest)).head?, c.isDigit = false := by
  unfold point
  split
  · exact fun c here => (power_head proper apart c here).1
  · intro c here
    have same : CodePoint.ofChar '.' = c := Option.some.inj here
    subst same
    decide

/-- The sign is taken off; without one the text begins with a digit. -/
theorem read_sign (proper : n.IsProper) (more : Text) :
    (n.negative = true ∧ after? "-" ("-" ++ (n.whole ++ more)) = some (n.whole ++ more)) ∨
      (n.negative = false ∧ after? "-" (n.whole ++ more) = none) := by
  cases n.negative with
  | true => exact .inl ⟨rfl,after?_append _ _⟩
  | false =>
    obtain ⟨c,digits,begins⟩ := List.exists_cons_of_ne_nil proper.nonempty
    have digit : c.isDigit = true := proper.digits c (by simp [begins])
    rw [begins,List.cons_append]
    exact .inr ⟨rfl,after?_cons_ne [] _ (ne_of_isDigit digit (by decide))⟩

/-- A number is read whole, as long as what follows does not go on with it. -/
theorem read (proper : n.IsProper) (apart : Apart rest) : readNumber (n.written ++ rest) = .ok (.number n.value,rest) := by
  have whole := read_whole proper (point_head proper apart)
  have fraction := read_point proper (power_head proper apart)
  have exponent := read_power proper apart
  have shape : n.written ++ rest = (if n.negative then "-" else "") ++ (n.whole ++ (n.point ++ (n.power ++ rest))) := by
    simp [written]
  rw [shape]
  rcases read_sign proper (n.point ++ (n.power ++ rest)) with ⟨sign,minus⟩ | ⟨sign,noMinus⟩
  · rw [if_pos sign]
    simp only [readNumber,minus,whole,fraction,exponent]
    cases fraction : n.fraction <;> cases exponent : n.exponent <;>
      simp_all [value,power,digitLimit,proper.limit]
  · rw [if_neg (by simp [sign])]
    change readNumber (n.whole ++ _) = _
    simp only [readNumber,noMinus,whole,fraction,exponent]
    cases fraction : n.fraction <;> cases exponent : n.exponent <;>
      simp_all [value,power,digitLimit,proper.limit]

end Numeral

theorem Numeral.begins {n : Numeral} (proper : n.IsProper) : ∃ c more, n.whole = c :: more ∧ c.isDigit = true := by
  obtain ⟨c,more,begins⟩ := List.exists_cons_of_ne_nil proper.nonempty
  exact ⟨c,more,begins,proper.digits c (by simp [begins])⟩

theorem isSpace_of_isDigit {c : CodePoint} (digit : c.isDigit = true) : isSpace c = false := by
  have ne {other : CodePoint} (none : other.isDigit = false) : c ≠ other := (ne_of_isDigit digit none).symm
  simp [isSpace,ne (by decide : (CodePoint.ofChar ' ').isDigit = false),
    ne (by decide : (CodePoint.ofChar '\t').isDigit = false),ne (by decide : (CodePoint.ofChar '\n').isDigit = false),
    ne (by decide : (CodePoint.ofChar '\r').isDigit = false)]

/-- A value begins with neither space nor a closing bracket nor a byte order mark. -/
theorem Denotes.begins {w : Text} {v : Json} (value : Denotes w v) : ∃ c more, w = c :: more ∧
    isSpace c = false ∧ c ≠ CodePoint.ofChar ']' ∧ c ≠ CodePoint.ofChar '\uFEFF' := by
  cases value with
  | word listed =>
    simp only [words,List.mem_cons,List.not_mem_nil,or_false,Prod.mk.injEq] at listed
    rcases listed with ⟨rfl,_⟩ | ⟨rfl,_⟩ | ⟨rfl,_⟩ | ⟨rfl,_⟩ | ⟨rfl,_⟩ | ⟨rfl,_⟩ <;>
      exact ⟨_,_,rfl,by decide,by decide,by decide⟩
  | @number n proper =>
    unfold Numeral.written
    split
    · exact ⟨_,_,rfl,by decide,by decide,by decide⟩
    · obtain ⟨c,more,begins,digit⟩ := Numeral.begins proper
      refine ⟨c,more ++ (n.point ++ n.power),by rw [begins]; rfl,isSpace_of_isDigit digit,?_,?_⟩
      · exact (ne_of_isDigit digit (by decide)).symm
      · exact (ne_of_isDigit digit (by decide)).symm
  | _ => exact ⟨_,_,rfl,by decide,by decide,by decide⟩

/-- What may stand behind a value and the gap after it. -/
def Stops (rest : Text) : Prop := ∀ c ∈ rest.head?, c ∈ delimiters

theorem skipSpace_stops {gap rest : Text} (blank : IsGap gap) (stops : Stops rest) : skipSpace (gap ++ rest) = rest := by
  cases rest with
  | nil =>
    rw [List.append_nil]
    exact List.dropWhile_eq_nil_iff.mpr blank.blank
  | cons c rest =>
    have all : delimiters.all (fun c => !isSpace c) = true := by decide
    have solid : isSpace c = false := by simpa using List.all_eq_true.mp all c (stops c rfl)
    exact skipSpace_gap blank ⟨c,rest,rfl,solid⟩

theorem stops_cons {c : CodePoint} (listed : c ∈ delimiters) (rest : Text) : Stops (c :: rest) := by
  intro d here
  cases here
  exact listed

theorem Stops.ends {gap rest : Text} (stops : Stops rest) (blank : IsGap gap) : Ends (gap ++ rest) := by
  intro c here
  cases gap with
  | nil => exact .inr (stops c here)
  | cons d gap =>
    have same : d = c := Option.some.inj here
    exact .inl (blank c (by simp [same]))

/-- The reader reads these texts with this much fuel. -/
structure Reads (fuel : Nat) : Prop where
  value : ∀ {w v rest}, Denotes w v → w.length ≤ fuel → Ends rest → readValue fuel (w ++ rest) = .ok (v,rest)
  elements : ∀ {w vs rest}, Elements w vs → w.length < fuel →
    readElements fuel (skipSpace (w ++ ("]" ++ rest))) = .ok (vs,rest)
  members : ∀ {w ms rest}, Members w ms → w.length < fuel →
    readMembers fuel (skipSpace (w ++ ("\x7d" ++ rest))) = .ok (ms,rest)

theorem readWord?_listed {w : Text} {v : Json} (listed : (w,v) ∈ words) (rest : Text) :
    readWord? (w ++ rest) = some (v,rest) := by
  simp only [words,List.mem_cons,List.not_mem_nil,or_false,Prod.mk.injEq] at listed
  rcases listed with ⟨rfl,rfl⟩ | ⟨rfl,rfl⟩ | ⟨rfl,rfl⟩ | ⟨rfl,rfl⟩ | ⟨rfl,rfl⟩ | ⟨rfl,rfl⟩ <;> rfl

theorem readWord?_number {n : Numeral} (proper : n.IsProper) (rest : Text) : readWord? (n.written ++ rest) = none := by
  obtain ⟨c,more,begins,digit⟩ := Numeral.begins proper
  have ne {other : CodePoint} (none : other.isDigit = false) : other ≠ c := ne_of_isDigit digit none
  unfold readWord?
  rw [List.findSome?_eq_none_iff]
  intro word member
  rw [Option.map_eq_none_iff]
  simp only [words,List.mem_cons,List.not_mem_nil,or_false] at member
  unfold Numeral.written
  rw [begins]
  split
  · rcases member with rfl | rfl | rfl | rfl | rfl | rfl
    iterate 5 exact after?_cons_ne _ _ (by decide)
    -- the last word has the minus too
    change after? (ofString "Infinity") (c :: _) = none
    exact after?_cons_ne _ _ (ne (by decide))
  · rcases member with rfl | rfl | rfl | rfl | rfl | rfl <;> exact after?_cons_ne _ _ (ne (by decide))

/-- What begins neither a string nor an array nor an object is a word or a number. -/
theorem readValue_plain {c : CodePoint} (noQuote : c ≠ doubleQuote) (noBracket : c ≠ CodePoint.ofChar '[')
    (noBrace : c ≠ CodePoint.ofChar '\x7b') (fuel : Nat) (more : Text) :
    readValue (fuel + 1) (c :: more) = (readWord? (c :: more)).elim (readNumber (c :: more)) .ok := by
  rw [readValue.eq_def]
  simp only [noQuote,noBracket,noBrace,if_false]
  cases readWord? (c :: more) <;> rfl

theorem readValue_word {w : Text} {v : Json} (listed : (w,v) ∈ words) (fuel : Nat) (rest : Text) :
    readValue (fuel + 1) (w ++ rest) = .ok (v,rest) := by
  have word := readWord?_listed listed rest
  have plain : ∃ c more, w = c :: more ∧ c ≠ doubleQuote ∧ c ≠ CodePoint.ofChar '[' ∧ c ≠ CodePoint.ofChar '\x7b' := by
    simp only [words,List.mem_cons,List.not_mem_nil,or_false,Prod.mk.injEq] at listed
    rcases listed with ⟨rfl,_⟩ | ⟨rfl,_⟩ | ⟨rfl,_⟩ | ⟨rfl,_⟩ | ⟨rfl,_⟩ | ⟨rfl,_⟩ <;>
      exact ⟨_,_,rfl,by decide,by decide,by decide⟩
  obtain ⟨c,more,rfl,noQuote,noBracket,noBrace⟩ := plain
  rw [List.cons_append] at word ⊢
  rw [readValue_plain noQuote noBracket noBrace,word]
  rfl

theorem readValue_number {n : Numeral} (proper : n.IsProper) (fuel : Nat) {rest : Text} (ends : Ends rest) :
    readValue (fuel + 1) (n.written ++ rest) = .ok (.number n.value,rest) := by
  have word := readWord?_number proper rest
  have number := Numeral.read proper ends.apart
  have plain : ∃ c more, n.written = c :: more ∧ c ≠ doubleQuote ∧ c ≠ CodePoint.ofChar '[' ∧
      c ≠ CodePoint.ofChar '\x7b' := by
    obtain ⟨c,more,begins,digit⟩ := Numeral.begins proper
    have ne {other : CodePoint} (none : other.isDigit = false) : c ≠ other := (ne_of_isDigit digit none).symm
    unfold Numeral.written
    rw [begins]
    split
    · exact ⟨_,_,rfl,by decide,by decide,by decide⟩
    · exact ⟨c,_,rfl,ne (by decide),ne (by decide),ne (by decide)⟩
  obtain ⟨c,more,shape,noQuote,noBracket,noBrace⟩ := plain
  rw [shape,List.cons_append] at word number ⊢
  rw [readValue_plain noQuote noBracket noBrace,word]
  exact number

namespace Reads

variable {fuel : Nat} {w rest : Text} {v : Json} {vs : List Json} {ms : List (Text × Json)}

theorem element (reads : Reads fuel) (element : Element w v) (enough : w.length ≤ fuel) (stops : Stops rest) :
    ∃ mid, readValue fuel (skipSpace (w ++ rest)) = .ok (v,mid) ∧ skipSpace mid = rest := by
  cases element with
  | @mk before w after v left value right =>
    obtain ⟨c,more,begins,solid,_⟩ := value.begins
    have ahead : skipSpace (before ++ (w ++ after) ++ rest) = w ++ (after ++ rest) := by
      rw [List.append_assoc,List.append_assoc]
      exact skipSpace_gap left ⟨c,more ++ (after ++ rest),by rw [begins]; rfl,solid⟩
    refine ⟨after ++ rest,?_,skipSpace_stops right stops⟩
    rw [ahead]
    refine reads.value value ?_ (stops.ends right)
    simp only [List.length_append] at enough
    omega

/-- Nothing but a gap and a value stands behind an opening bracket. -/
theorem elements_ahead (elements : Elements w vs) (rest : Text) :
    ∃ c more, skipSpace (w ++ rest) = c :: more ∧ c ≠ CodePoint.ofChar ']' := by
  have here {t : Text} {v : Json} (element : Element t v) (rest : Text) :
      ∃ c more, skipSpace (t ++ rest) = c :: more ∧ c ≠ CodePoint.ofChar ']' := by
    cases element with
    | @mk before w after v left value right =>
      obtain ⟨c,more,begins,solid,other,_⟩ := value.begins
      refine ⟨c,more ++ (after ++ rest),?_,other⟩
      rw [List.append_assoc,List.append_assoc,begins]
      exact skipSpace_gap left ⟨c,_,rfl,solid⟩
  cases elements with
  | last element => exact here element rest
  | cons element others =>
    rw [List.append_assoc]
    exact here element _

/-- Nothing but a gap and a key stands behind an opening brace. -/
theorem members_ahead (members : Members w ms) (rest : Text) : ∃ more, skipSpace (w ++ rest) = doubleQuote :: more := by
  have here {gap : Text} (blank : IsGap gap) (k more : Text) :
      skipSpace (gap ++ (inQuotes k ++ more)) = inQuotes k ++ more :=
    skipSpace_gap blank ⟨doubleQuote,_,rfl,by decide⟩
  cases members with
  | last left =>
    rw [List.append_assoc,List.append_assoc,here left]
    exact ⟨_,rfl⟩
  | cons left =>
    rw [List.append_assoc,List.append_assoc,here left]
    exact ⟨_,rfl⟩

theorem value_succ (reads : Reads fuel) (value : Denotes w v) (enough : w.length ≤ fuel + 1) (ends : Ends rest) :
    readValue (fuel + 1) (w ++ rest) = .ok (v,rest) := by
  cases value with
  | word listed => exact readValue_word listed fuel rest
  | number proper => exact readValue_number proper fuel ends
  | @text w t spelled =>
    have shape : inQuotes w ++ rest = doubleQuote :: (w ++ doubleQuote :: rest) := by simp [inQuotes]
    rw [shape,readValue.eq_def]
    simp only [if_true,spelled.read,Except.map]
  | @emptyArray gap blank =>
    have shape : ofString "[" ++ (gap ++ ofString "]") ++ rest = CodePoint.ofChar '[' :: (gap ++ (ofString "]" ++ rest)) := by
      simp [ofString]
    have ahead : skipSpace (gap ++ (ofString "]" ++ rest)) = ofString "]" ++ rest :=
      skipSpace_gap blank ⟨_,_,rfl,by decide⟩
    rw [shape,readValue.eq_def]
    simp only [(by decide : CodePoint.ofChar '[' ≠ doubleQuote),if_false,if_true,ahead,after?_append]
  | @array w vs elements =>
    have shape : ofString "[" ++ (w ++ ofString "]") ++ rest = CodePoint.ofChar '[' :: (w ++ (ofString "]" ++ rest)) := by
      simp [ofString]
    obtain ⟨c,more,ahead,other⟩ := elements_ahead elements (ofString "]" ++ rest)
    have goesOn : after? (ofString "]") (skipSpace (w ++ (ofString "]" ++ rest))) = none := by
      rw [ahead]
      exact after?_cons_ne [] more other.symm
    simp only [List.length_append] at enough
    have read : readElements fuel (skipSpace (w ++ (ofString "]" ++ rest))) = .ok (vs,rest) :=
      reads.elements elements (by change 1 + (w.length + 1) ≤ fuel + 1 at enough; omega)
    rw [shape,readValue.eq_def]
    simp only [(by decide : CodePoint.ofChar '[' ≠ doubleQuote),if_false,if_true,goesOn,read,Except.map]
  | @emptyObject gap blank =>
    have shape : ofString "\x7b" ++ (gap ++ ofString "\x7d") ++ rest =
        CodePoint.ofChar '\x7b' :: (gap ++ (ofString "\x7d" ++ rest)) := by
      simp [ofString]
    have ahead : skipSpace (gap ++ (ofString "\x7d" ++ rest)) = ofString "\x7d" ++ rest :=
      skipSpace_gap blank ⟨_,_,rfl,by decide⟩
    rw [shape,readValue.eq_def]
    simp only [(by decide : CodePoint.ofChar '\x7b' ≠ doubleQuote),
      (by decide : CodePoint.ofChar '\x7b' ≠ CodePoint.ofChar '['),if_false,if_true,ahead,after?_append]
  | @object w ms members =>
    have shape : ofString "\x7b" ++ (w ++ ofString "\x7d") ++ rest =
        CodePoint.ofChar '\x7b' :: (w ++ (ofString "\x7d" ++ rest)) := by
      simp [ofString]
    obtain ⟨more,ahead⟩ := members_ahead members (ofString "\x7d" ++ rest)
    have goesOn : after? (ofString "\x7d") (skipSpace (w ++ (ofString "\x7d" ++ rest))) = none := by
      rw [ahead]
      exact after?_cons_ne [] more (by decide)
    simp only [List.length_append] at enough
    have read : readMembers fuel (skipSpace (w ++ (ofString "\x7d" ++ rest))) = .ok (ms,rest) :=
      reads.members members (by change 1 + (w.length + 1) ≤ fuel + 1 at enough; omega)
    rw [shape,readValue.eq_def]
    simp only [(by decide : CodePoint.ofChar '\x7b' ≠ doubleQuote),
      (by decide : CodePoint.ofChar '\x7b' ≠ CodePoint.ofChar '['),if_false,if_true,goesOn,read,Except.map]

theorem elements_succ (reads : Reads fuel) (elements : Elements w vs) (enough : w.length < fuel + 1) :
    readElements (fuel + 1) (skipSpace (w ++ ("]" ++ rest))) = .ok (vs,rest) := by
  cases elements with
  | last element =>
    obtain ⟨mid,read,left⟩ := reads.element element (by omega) (stops_cons (by decide : CodePoint.ofChar ']' ∈ _) rest)
    change readElements _ (skipSpace (w ++ CodePoint.ofChar ']' :: rest)) = _
    rw [readElements.eq_def]
    simp only [read,left,if_true]
  | @cons w more v vs element others =>
    simp only [List.length_append] at enough
    change w.length + (1 + more.length) < fuel + 1 at enough
    obtain ⟨mid,read,left⟩ := reads.element element (by omega)
      (stops_cons (by decide : CodePoint.ofChar ',' ∈ _) (more ++ (ofString "]" ++ rest)))
    have shape : w ++ (ofString "," ++ more) ++ (ofString "]" ++ rest) =
        w ++ CodePoint.ofChar ',' :: (more ++ (ofString "]" ++ rest)) := by simp [ofString]
    have next : readElements fuel (skipSpace (more ++ (ofString "]" ++ rest))) = .ok (vs,rest) :=
      reads.elements others (by omega)
    rw [shape,readElements.eq_def]
    simp only [read,left,(by decide : CodePoint.ofChar ',' ≠ CodePoint.ofChar ']'),if_false,if_true,next]
    rfl

/-- A member is a key, a colon and a value. -/
theorem member_succ {before k key gap mid more : Text} {c : CodePoint} (left : IsGap before) (name : Characters k key)
    (right : IsGap gap) (read : readValue fuel (skipSpace w) = .ok (v,mid)) (behind : skipSpace mid = c :: more) :
    readMembers (fuel + 1) (skipSpace (before ++ (inQuotes k ++ (gap ++ (":" ++ w))))) =
      if c = CodePoint.ofChar '\x7d' then .ok ([(key,v)],more)
      else if c = CodePoint.ofChar ',' then
        (readMembers fuel (skipSpace more)).map fun found => ((key,v) :: found.1,found.2)
      else .error (.fault .expectingComma (c :: more)) := by
  have shape : inQuotes k ++ (gap ++ (ofString ":" ++ w)) =
      doubleQuote :: (k ++ doubleQuote :: (gap ++ (ofString ":" ++ w))) := by simp [inQuotes]
  have ahead : skipSpace (before ++ (inQuotes k ++ (gap ++ (ofString ":" ++ w)))) =
      doubleQuote :: (k ++ doubleQuote :: (gap ++ (ofString ":" ++ w))) := by
    rw [shape]
    exact skipSpace_gap left ⟨_,_,rfl,by decide⟩
  have colon : skipSpace (gap ++ (ofString ":" ++ w)) = ofString ":" ++ w :=
    skipSpace_gap right ⟨_,_,rfl,by decide⟩
  rw [ahead,readMembers.eq_def]
  simp only [if_true,name.read,colon,after?_append,read,behind]

theorem members_succ (reads : Reads fuel) (members : Members w ms) (enough : w.length < fuel + 1) :
    readMembers (fuel + 1) (skipSpace (w ++ ("\x7d" ++ rest))) = .ok (ms,rest) := by
  cases members with
  | @last before k key gap w v left name right element =>
    simp only [List.length_append] at enough
    obtain ⟨mid,read,behind⟩ := reads.element element (by omega)
      (stops_cons (by decide : CodePoint.ofChar '\x7d' ∈ _) rest)
    have shape : before ++ (inQuotes k ++ (gap ++ (ofString ":" ++ w))) ++ (ofString "\x7d" ++ rest) =
        before ++ (inQuotes k ++ (gap ++ (ofString ":" ++ (w ++ CodePoint.ofChar '\x7d' :: rest)))) := by
      simp [ofString]
    rw [shape,member_succ left name right read behind,if_pos rfl]
  | @cons before k key gap w more v ms left name right element others =>
    simp only [List.length_append] at enough
    change before.length + ((inQuotes k).length + (gap.length + (1 + (w.length + (1 + more.length))))) < fuel + 1 at enough
    obtain ⟨mid,read,behind⟩ := reads.element element (by omega)
      (stops_cons (by decide : CodePoint.ofChar ',' ∈ _) (more ++ (ofString "\x7d" ++ rest)))
    have shape : before ++ (inQuotes k ++ (gap ++ (ofString ":" ++ (w ++ (ofString "," ++ more))))) ++
        (ofString "\x7d" ++ rest) = before ++ (inQuotes k ++ (gap ++ (ofString ":" ++
          (w ++ CodePoint.ofChar ',' :: (more ++ (ofString "\x7d" ++ rest)))))) := by
      simp [ofString]
    have next : readMembers fuel (skipSpace (more ++ (ofString "\x7d" ++ rest))) = .ok (ms,rest) :=
      reads.members others (by omega)
    rw [shape,member_succ left name right read behind,if_neg (by decide),if_pos rfl,next]
    rfl

end Reads

/-- Fuel as long as the text is enough. -/
theorem reads (fuel : Nat) : Reads fuel := by
  induction fuel with
  | zero =>
    refine ⟨?_,fun _ enough => absurd enough (Nat.not_lt_zero _),fun _ enough => absurd enough (Nat.not_lt_zero _)⟩
    intro w v rest value enough
    obtain ⟨c,more,rfl,_⟩ := value.begins
    exact absurd enough (Nat.not_succ_le_zero _)
  | succ fuel ih => exact ⟨ih.value_succ,ih.elements_succ,ih.members_succ⟩

/-- A text is read as the value it denotes. -/
theorem Element.parse {t : Text} {v : Json} (document : Element t v) : parse t = .ok v := by
  have noMark : after? byteOrderMark t = none := by
    cases document with
    | @mk before w after v left value right =>
      cases before with
      | nil =>
        obtain ⟨c,more,rfl,_,_,other⟩ := value.begins
        exact after?_cons_ne [] _ other.symm
      | cons c before =>
        have all : spaces.all (fun c => CodePoint.ofChar '\uFEFF' ≠ c) = true := by decide
        exact after?_cons_ne [] _ (by simpa using List.all_eq_true.mp all c (left c (by simp)))
  obtain ⟨mid,read,behind⟩ := (reads (fuelFor t)).element document (by unfold fuelFor; omega)
    (show Stops [] from nofun)
  rw [List.append_nil] at read
  simp only [Json.parse,noMark,readDocument,read,behind]

/-- A text denotes one value at most. -/
theorem Element.unique {t : Text} {v other : Json} (document : Element t v) (again : Element t other) : v = other :=
  Except.ok.inj (document.parse.symm.trans again.parse)

end PullNotices.Json
