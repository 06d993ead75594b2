import PullNotices.Proofs.Json.Reading

/-! What the reader accepts. Each of its steps takes off the text just what the grammar has there, so a
text is read as a value only if it denotes it. -/
namespace PullNotices.Json
open Text

theorem readPieces_eq_ok {whole t rest : Text} {ps : List Piece} (read : readPieces whole t = .ok (ps,rest)) :
    ∃ w, t = w ++ doubleQuote :: rest ∧ Pieces w ps := by
  fun_induction readPieces whole t generalizing ps with
  | case2 more =>
    cases read
    exact ⟨[],rfl,.nil⟩
  | case4 a b c d next more u unit _ ih =>
    obtain ⟨⟨others,_⟩,found,same⟩ := map_eq_ok read
    cases same
    obtain ⟨w,shape,pieces⟩ := ih found
    refine ⟨_ ++ w,?_,.unit (isUnit_iff.mpr ⟨a,b,c,d,rfl,unit⟩) pieces⟩
    rw [List.append_assoc,← shape]
    rfl
  | case7 letter digits other x escape _ ih =>
    obtain ⟨⟨others,_⟩,found,same⟩ := map_eq_ok read
    cases same
    obtain ⟨w,rfl,pieces⟩ := ih found
    exact ⟨_,rfl,.short (shortEscape?_eq_some_iff.mp escape) pieces⟩
  | case10 c more noQuote noEscape shown ih =>
    obtain ⟨⟨others,_⟩,found,same⟩ := map_eq_ok read
    cases same
    obtain ⟨w,rfl,pieces⟩ := ih found
    exact ⟨_,rfl,.raw (by omega) noQuote noEscape pieces⟩
  | _ => cases read

theorem joinSurrogates_val {u v : CodePoint} (high : u.isHighSurrogate = true) (low : v.isLowSurrogate = true) :
    (joinSurrogates u v).val = 0x10000 + (u.val - 0xd800) * 0x400 + (v.val - 0xdc00) := by
  simp only [CodePoint.isHighSurrogate,CodePoint.isLowSurrogate,Bool.and_eq_true,decide_eq_true_eq] at high low
  have bound : 0x10000 + (u.val - 0xd800) * 0x400 + (v.val - 0xdc00) < 0x110000 := by omega
  simp only [joinSurrogates,bound,dif_pos]

theorem units_joinSurrogates {u v : CodePoint} (high : u.isHighSurrogate = true) (low : v.isLowSurrogate = true) :
    0x10000 ≤ (joinSurrogates u v).val ∧ highUnit (joinSurrogates u v) = u ∧ lowUnit (joinSurrogates u v) = v := by
  have value := joinSurrogates_val high low
  simp only [CodePoint.isHighSurrogate,CodePoint.isLowSurrogate,Bool.and_eq_true,decide_eq_true_eq] at high low
  refine ⟨by omega,Fin.ext ?_,Fin.ext ?_⟩
  · rw [highUnit_val]
    omega
  · rw [lowUnit_val]
    omega

/-- Pieces stand for the text that they are joined to. -/
theorem Pieces.characters {w : Text} {ps : List Piece} (pieces : Pieces w ps) : Characters w (joinPieces ps) := by
  fun_induction joinPieces ps generalizing w with
  | case1 =>
    cases pieces
    exact .nil
  | case2 c more ih =>
    cases pieces with
    | raw shown noQuote noEscape rest => exact .raw shown noQuote noEscape (ih rest)
    | short listed rest => exact .short listed (ih rest)
  | case3 u v more paired ih =>
    obtain ⟨high,low⟩ := Bool.and_eq_true_iff.mp paired
    obtain ⟨astral,first,second⟩ := units_joinSurrogates high low
    cases pieces with
    | unit escape others =>
      cases others with
      | unit other rest => exact .pair astral (first.symm ▸ escape) (second.symm ▸ other) (ih rest)
  | case4 u v more apart ih =>
    cases pieces with
    | unit escape others =>
      refine .unit escape ?_ (ih others)
      rintro high f x tail unit low rfl
      obtain ⟨_,same⟩ := others.unit_iff.mp ⟨f,tail,unit,rfl⟩
      cases same
      exact apart (by simp [high,low])
  | case5 u more none ih =>
    cases pieces with
    | unit escape others =>
      refine .unit escape ?_ (ih others)
      rintro _ f x tail unit _ rfl
      obtain ⟨rest,same⟩ := others.unit_iff.mp ⟨f,tail,unit,rfl⟩
      exact none x rest same

theorem readString_eq_ok {whole t s rest : Text} (read : readString whole t = .ok (s,rest)) :
    ∃ w, t = w ++ doubleQuote :: rest ∧ Characters w s := by
  obtain ⟨⟨ps,_⟩,found,same⟩ := map_eq_ok read
  cases same
  obtain ⟨w,shape,pieces⟩ := readPieces_eq_ok found
  exact ⟨w,shape,pieces.characters⟩

theorem span_eq {t digits rest : Text} (found : t.span CodePoint.isDigit = (digits,rest)) :
    t = digits ++ rest ∧ ∀ c ∈ digits, c.isDigit = true := by
  rw [List.span_eq_takeWhile_dropWhile] at found
  cases found
  exact ⟨List.takeWhile_append_dropWhile.symm,fun c member => List.mem_takeWhile_imp member⟩

theorem readWhole?_eq_some {t whole rest : Text} (read : readWhole? t = some (whole,rest)) :
    t = whole ++ rest ∧ (∀ c ∈ whole, c.isDigit = true) ∧ whole ≠ [] ∧
      (whole = "0" ∨ whole.head? ≠ some (CodePoint.ofChar '0')) := by
  unfold readWhole? at read
  split at read
  · cases read
  · rename_i c more
    split at read
    · rename_i zero
      subst zero
      cases read
      refine ⟨rfl,?_,by decide,.inl rfl⟩
      intro c member
      rw [List.mem_singleton.mp member]
      decide
    · rename_i other
      split at read
      · rename_i digit
        obtain ⟨shape,digits⟩ := span_eq (Option.some.inj read)
        have spanned := Option.some.inj read
        cases whole with
        | nil => simp [List.span_eq_takeWhile_dropWhile,digit] at spanned
        | cons d whole =>
          cases shape
          exact ⟨rfl,digits,nofun,.inr (by simpa using other)⟩
      · cases read

theorem readFraction_eq {t fraction rest : Text} (read : readFraction t = (fraction,rest)) :
    t = (if fraction = [] then [] else ofString "." ++ fraction) ++ rest ∧ ∀ c ∈ fraction, c.isDigit = true := by
  unfold readFraction at read
  split at read
  · cases read
    exact ⟨rfl,nofun⟩
  · rename_i more point
    split at read
    · cases read
      exact ⟨rfl,nofun⟩
    · rename_i found some
      obtain ⟨rfl,digits⟩ := span_eq read
      have nonempty : fraction ≠ [] := by
        rintro rfl
        exact some _ read
      rw [if_neg nonempty,after?_eq_some.mp point,List.append_assoc]
      exact ⟨rfl,digits⟩

theorem readExponent?_eq_some {t rest : Text} {x : Int} (read : readExponent? t = some (x,rest)) :
    ∃ e : Exponent, e.IsProper ∧ t = e.written ++ rest ∧ x = e.value := by
  unfold readExponent? at read
  split at read
  · cases read
  · rename_i c more
    split at read
    · rename_i marked
      have letter : c ∈ ofString "eE" := by simpa [ofString] using marked
      split at read
      rename_i negative body sign
      have signed : ∃ mark, more = mark ++ body ∧ (mark = [] ∨ mark = "+" ∨ mark = "-") ∧
          (mark = "-" ↔ negative = true) := by
        split at sign
        · rename_i left minus
          cases sign
          exact ⟨"-",after?_eq_some.mp minus,.inr (.inr rfl),by simp⟩
        · cases sign
          cases plus : after? (ofString "+") more with
          | none => exact ⟨[],rfl,.inl rfl,by decide⟩
          | some left => exact ⟨"+",after?_eq_some.mp plus,.inr (.inl rfl),by decide⟩
      obtain ⟨mark,rfl,allowed,minus⟩ := signed
      split at read
      · cases read
      · rename_i digits left nonempty spanned
        obtain ⟨rfl,all⟩ := span_eq spanned
        cases read
        refine ⟨⟨c,mark,digits⟩,⟨letter,allowed,all,nonempty⟩,by simp [Exponent.written],?_⟩
        unfold Exponent.value
        simp only [minus]
    · cases read

theorem readNumber_eq_ok {t rest : Text} {v : Json} (read : readNumber t = .ok (v,rest)) :
    ∃ n : Numeral, n.IsProper ∧ t = n.written ++ rest ∧ v = .number n.value := by
  unfold readNumber at read
  split at read
  rename_i negative body sign
  have signed : t = (if negative then "-" else "") ++ body := by
    split at sign
    · rename_i left minus
      cases sign
      exact after?_eq_some.mp minus
    · cases sign
      rfl
  dsimp only at read
  split at read
  · cases read
  · rename_i whole left found
    obtain ⟨rfl,digits,nonempty,leading⟩ := readWhole?_eq_some found
    cases parts : readFraction left with
    | mk places behind =>
      obtain ⟨rfl,decimals⟩ := readFraction_eq parts
      rw [parts] at read
      dsimp only at read
      split at read
      · split at read
        · cases read
        · rename_i limit
          cases read
          refine ⟨⟨negative,whole,[],none⟩,⟨digits,nonempty,leading,decimals,by simp,fun _ _ => not_lt.mp limit⟩,?_,
            by simp [Numeral.value]⟩
          simpa [Numeral.written,Numeral.point,Numeral.power] using signed
      · rename_i places _ _ decimal
        cases found : readExponent? behind with
        | none =>
          rw [found] at read
          cases read
          have some : places ≠ [] := fun none => decimal none found
          refine ⟨⟨negative,whole,places,none⟩,⟨digits,nonempty,leading,decimals,by simp,fun none => absurd none some⟩,?_,
            by simp [Numeral.value,some]⟩
          simpa [Numeral.written,Numeral.point,Numeral.power] using signed
        | some part =>
          obtain ⟨x,after⟩ := part
          obtain ⟨e,proper,rfl,rfl⟩ := readExponent?_eq_some found
          rw [found] at read
          cases read
          refine ⟨⟨negative,whole,places,some e⟩,⟨digits,nonempty,leading,decimals,by simpa using proper,by simp⟩,?_,
            by simp [Numeral.value]⟩
          simpa [Numeral.written,Numeral.point,Numeral.power] using signed

theorem skipSpace_split (t : Text) : ∃ gap, IsGap gap ∧ t = gap ++ skipSpace t := by
  refine ⟨t.takeWhile isSpace,?_,List.takeWhile_append_dropWhile.symm⟩
  intro c member
  have space : isSpace c = true := List.mem_takeWhile_imp member
  simpa [isSpace,spaces,ofString,or_assoc] using space

section
variable {gap w : Text} {v : Json} {vs : List Json} {ms : List (Text × Json)}

theorem Element.prepend (element : Element w v) (blank : IsGap gap) : Element (gap ++ w) v := by
  cases element with
  | mk left value right =>
    rw [← List.append_assoc]
    exact .mk (blank.append left) value right

theorem Elements.prepend (elements : Elements w vs) (blank : IsGap gap) : Elements (gap ++ w) vs := by
  cases elements with
  | last element => exact .last (element.prepend blank)
  | cons element rest =>
    rw [← List.append_assoc]
    exact .cons (element.prepend blank) rest

theorem Members.prepend (members : Members w ms) (blank : IsGap gap) : Members (gap ++ w) ms := by
  cases members with
  | last left name right element =>
    rw [← List.append_assoc]
    exact .last (blank.append left) name right element
  | cons left name right element rest =>
    rw [← List.append_assoc]
    exact .cons (blank.append left) name right element rest

end

theorem readWord?_eq_some {t rest : Text} {v : Json} (read : readWord? t = some (v,rest)) :
    ∃ w, t = w ++ rest ∧ (w,v) ∈ words := by
  obtain ⟨⟨word,value⟩,member,here⟩ := List.exists_of_findSome?_eq_some read
  obtain ⟨left,behind,same⟩ := Option.map_eq_some_iff.mp here
  cases same
  exact ⟨word,after?_eq_some.mp behind,member⟩

/-- The reader takes these texts with this much fuel. -/
structure Takes (fuel : Nat) : Prop where
  value : ∀ {t v rest}, readValue fuel t = .ok (v,rest) → ∃ w, t = w ++ rest ∧ Denotes w v
  elements : ∀ {t vs rest}, readElements fuel t = .ok (vs,rest) → ∃ w, t = w ++ ("]" ++ rest) ∧ Elements w vs
  members : ∀ {t ms rest}, readMembers fuel t = .ok (ms,rest) → ∃ w, t = w ++ ("\x7d" ++ rest) ∧ Members w ms

namespace Takes

variable {fuel : Nat} {t rest : Text} {v : Json} {vs : List Json} {ms : List (Text × Json)}

theorem value_succ (takes : Takes fuel) (read : readValue (fuel + 1) t = .ok (v,rest)) :
    ∃ w, t = w ++ rest ∧ Denotes w v := by
  rw [readValue.eq_def] at read
  dsimp only at read
  split at read
  · cases read
  rename_i c more
  obtain ⟨gap,blank,inside⟩ := skipSpace_split more
  split at read
  · rename_i quote
    subst quote
    obtain ⟨⟨s,left⟩,string,same⟩ := map_eq_ok read
    cases same
    obtain ⟨w,rfl,spelled⟩ := readString_eq_ok string
    exact ⟨_,by simp [inQuotes],.text spelled⟩
  split at read
  · rename_i bracket
    subst bracket
    split at read
    · rename_i left closing
      cases read
      refine ⟨_,?_,.emptyArray blank⟩
      rw [inside,after?_eq_some.mp closing]
      simp [ofString]
    · obtain ⟨⟨found,left⟩,elements,same⟩ := map_eq_ok read
      cases same
      obtain ⟨w,shape,elements⟩ := takes.elements elements
      refine ⟨_,?_,.array (elements.prepend blank)⟩
      rw [inside,shape]
      simp [ofString]
  split at read
  · rename_i brace
    subst brace
    split at read
    · rename_i left closing
      cases read
      refine ⟨_,?_,.emptyObject blank⟩
      rw [inside,after?_eq_some.mp closing]
      simp [ofString]
    · obtain ⟨⟨found,left⟩,members,same⟩ := map_eq_ok read
      cases same
      obtain ⟨w,shape,members⟩ := takes.members members
      refine ⟨_,?_,.object (members.prepend blank)⟩
      rw [inside,shape]
      simp [ofString]
  split at read
  · rename_i word
    cases read
    obtain ⟨w,shape,listed⟩ := readWord?_eq_some word
    exact ⟨w,shape,.word listed⟩
  · obtain ⟨n,proper,shape,rfl⟩ := readNumber_eq_ok read
    exact ⟨_,shape,.number proper⟩

theorem elements_succ (takes : Takes fuel) (read : readElements (fuel + 1) t = .ok (vs,rest)) :
    ∃ w, t = w ++ ("]" ++ rest) ∧ Elements w vs := by
  rw [readElements.eq_def] at read
  dsimp only at read
  split at read
  · cases read
  rename_i v left value
  obtain ⟨w,rfl,denoted⟩ := takes.value value
  obtain ⟨gap,blank,inside⟩ := skipSpace_split left
  have element : Element ([] ++ (w ++ gap)) v := .mk .nil denoted blank
  split at read
  · cases read
  rename_i c more here
  rw [here] at inside
  split at read
  · rename_i bracket
    subst bracket
    cases read
    refine ⟨_,?_,.last element⟩
    rw [inside]
    simp [ofString]
  split at read
  · rename_i comma
    subst comma
    obtain ⟨⟨others,last⟩,elements,same⟩ := map_eq_ok read
    cases same
    obtain ⟨space,also,behind⟩ := skipSpace_split more
    obtain ⟨w',shape,elements⟩ := takes.elements elements
    refine ⟨_,?_,.cons element (elements.prepend also)⟩
    rw [inside,behind,shape]
    simp [ofString]
  · cases read

theorem members_succ (takes : Takes fuel) (read : readMembers (fuel + 1) t = .ok (ms,rest)) :
    ∃ w, t = w ++ ("\x7d" ++ rest) ∧ Members w ms := by
  rw [readMembers.eq_def] at read
  dsimp only at read
  split at read
  · cases read
  rename_i c more
  split at read
  · rename_i quote
    subst quote
    split at read
    · cases read
    rename_i key behind string
    obtain ⟨k,rfl,name⟩ := readString_eq_ok string
    obtain ⟨between,right,colon⟩ := skipSpace_split behind
    split at read
    · cases read
    rename_i left point
    rw [after?_eq_some.mp point] at colon
    obtain ⟨ahead,first,inside⟩ := skipSpace_split left
    split at read
    · cases read
    rename_i v after value
    obtain ⟨w,shape,value⟩ := takes.value value
    rw [shape] at inside
    obtain ⟨gap,blank,final⟩ := skipSpace_split after
    have element : Element (ahead ++ (w ++ gap)) v := .mk first value blank
    split at read
    · cases read
    rename_i c more here
    rw [here] at final
    split at read
    · rename_i brace
      subst brace
      cases read
      refine ⟨_,?_,.last .nil name right element⟩
      rw [colon,inside,final]
      simp [ofString,inQuotes]
    split at read
    · rename_i comma
      subst comma
      obtain ⟨⟨others,last⟩,members,same⟩ := map_eq_ok read
      cases same
      obtain ⟨space,also,next⟩ := skipSpace_split more
      obtain ⟨w',tail,members⟩ := takes.members members
      refine ⟨_,?_,.cons .nil name right element (members.prepend also)⟩
      rw [colon,inside,final,next,tail]
      simp [ofString,inQuotes]
    · cases read
  · cases read

end Takes

theorem takes (fuel : Nat) : Takes fuel := by
  induction fuel with
  | zero => exact ⟨nofun,nofun,nofun⟩
  | succ fuel ih => exact ⟨ih.value_succ,ih.elements_succ,ih.members_succ⟩

/-- A text is read as a value just if it denotes it. -/
theorem parse_eq_ok_iff {t : Text} {v : Json} : parse t = .ok v ↔ Element t v := by
  refine ⟨fun read => ?_,Element.parse⟩
  unfold parse at read
  split at read
  · cases read
  split at read
  · rename_i value document
    cases read
    unfold readDocument at document
    split at document
    · cases document
    rename_i found rest value
    obtain ⟨gap,blank,inside⟩ := skipSpace_split t
    obtain ⟨w,shape,value⟩ := (takes _).value value
    obtain ⟨after,also,behind⟩ := skipSpace_split rest
    split at document
    · rename_i none
      cases document
      rw [none,List.append_nil] at behind
      rw [inside,shape,behind]
      exact .mk blank value also
    · cases document
  · cases read
  · cases read

end PullNotices.Json
