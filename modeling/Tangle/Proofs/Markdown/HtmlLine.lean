import Tangle.Proofs.Markdown.FirstLine

/-!
Contract: how an HTML block starts is answered by its first line.

Owns: for the seven kinds of opening line, names, attributes and complete tags
included, that text behind the line does not matter.

Does **not** own: where an HTML block ends (`Tangle.Proofs.Markdown.Region`).

Attributes are read with fuel, and the fuel depends on the length of the text. Reading
one takes at least a character, so any fuel above the length gives the same answer.
-/

set_option autoImplicit false

namespace Tangle.Markdown.Html

variable {text later : List Char}

/-! ## Kinds one to six -/

theorem isPrefixOf_append (shut : Shut text later) :
    ∀ {pattern : List Char}, '\n' ∉ pattern →
      pattern.isPrefixOf (text ++ later) = pattern.isPrefixOf text := by
  intro pattern
  induction pattern generalizing text with
  | nil => intro _; simp
  | cons a pattern inductionHypothesis =>
      intro free
      rw [List.mem_cons, not_or] at free
      cases text with
      | nil => rw [shut.later_eq_nil]; rfl
      | cons c rest =>
          rw [List.cons_append, List.isPrefixOf, List.isPrefixOf]
          by_cases same : a = c
          · subst same
            rw [inductionHypothesis (shut.tail (Ne.symm free.1)) free.2]
          · rw [beq_false_of_ne same, Bool.false_and, Bool.false_and]

/-- A name is compared with the start of the line, and the line is shut behind it. -/
theorem lower_take_append (shut : Shut text later) :
    ∀ {name : List Char}, '\n' ∉ name →
      (lower ((text ++ later).take name.length) = name
          ↔ lower (text.take name.length) = name)
        ∧ (lower (text.take name.length) = name →
            name.length ≤ text.length ∧ Shut (text.drop name.length) later) := by
  intro name
  induction name generalizing text with
  | nil => intro _; simpa [lower] using shut
  | cons a name inductionHypothesis =>
      intro free
      rw [List.mem_cons, not_or] at free
      cases text with
      | nil =>
          rw [shut.later_eq_nil]
          simp [lower]
      | cons c rest =>
          simp only [lower, List.cons_append, List.length_cons, List.take_succ_cons, List.map_cons,
            List.cons.injEq, List.drop_succ_cons, Nat.add_le_add_iff_right]
          by_cases same : c.toLower = a
          · have other : c ≠ '\n' := by
              rintro rfl
              exact free.1 same
            obtain ⟨alike, behind⟩ := inductionHypothesis (shut.tail other) free.2
            exact ⟨and_congr_right fun _ => alike, fun found => behind found.2⟩
          · simp [same]

def opensRaw (text : List Char) (name : String) : Bool :=
  startsWithName name text &&
    match text.drop name.length with
    | [] => true
    | c :: _ => isSpace c || c == '>'

private theorem opensRaw_append (shut : Shut text later) {name : String} (free : '\n' ∉ name.toList) :
    opensRaw (text ++ later) name = opensRaw text name := by
  obtain ⟨alike, behind⟩ := lower_take_append shut free
  unfold opensRaw startsWithName
  rw [← String.length_toList]
  by_cases found : lower (text.take name.toList.length) = name.toList
  · obtain ⟨inside, behindShut⟩ := behind found
    rw [beq_iff_eq.mpr (alike.mpr found), beq_iff_eq.mpr found, Bool.true_and, Bool.true_and,
      List.drop_append_of_le_length inside]
    cases isRest : text.drop name.toList.length with
    | nil =>
        rw [isRest] at behindShut
        rw [behindShut.later_eq_nil]
        rfl
    | cons c rest => rfl
  · rw [beq_false_of_ne found, beq_false_of_ne (mt alike.mp found), Bool.false_and,
      Bool.false_and]

/-- The closing text of a declaration: an exclamation mark and a letter. -/
def declaration? (text : List Char) : Option String :=
  match text with
  | '!' :: c :: _ => if c.isAlpha then some ">" else none
  | _ => none

private theorem declaration?_append (shut : Shut text later) :
    declaration? (text ++ later) = declaration? text := by
  match text, shut with
  | [], shut => rw [shut.later_eq_nil]; rfl
  | [c], shut =>
      by_cases feed : c = '\n'
      · subst feed
        simp [declaration?]
      · rw [(shut.tail feed).later_eq_nil]; rfl
  | c :: d :: rest, _ =>
      by_cases mark : c = '!'
      · subst mark; rfl
      · simp [declaration?, mark]

theorem closing?_eq (text : List Char) :
    closing? text =
      match rawElements.find? (opensRaw text) with
      | some name => some ("</" ++ name ++ ">")
      | none =>
          if "!--".toList.isPrefixOf text then some "-->"
          else if "?".toList.isPrefixOf text then some "?>"
          else if "![CDATA[".toList.isPrefixOf text then some "]]>"
          else declaration? text := rfl

theorem closing?_append (shut : Shut text later) : closing? (text ++ later) = closing? text := by
  have raw : rawElements.find? (opensRaw (text ++ later)) = rawElements.find? (opensRaw text) := by
    have alike : ∀ names : List String, (∀ name ∈ names, '\n' ∉ name.toList) →
        names.find? (opensRaw (text ++ later)) = names.find? (opensRaw text) := by
      intro names free
      induction names with
      | nil => rfl
      | cons name names inductionHypothesis =>
          rw [List.forall_mem_cons] at free
          rw [List.find?_cons, List.find?_cons, opensRaw_append shut free.1,
            inductionHypothesis free.2]
    exact alike rawElements (by decide)
  rw [closing?_eq, closing?_eq, raw, isPrefixOf_append shut (by decide),
    isPrefixOf_append shut (by decide), isPrefixOf_append shut (by decide),
    declaration?_append shut]

def endsName (text : List Char) : Bool :=
  match text with
  | [] => true
  | '/' :: '>' :: _ => true
  | c :: _ => c == ' ' || c == '\t' || c == '\r' || c == '\n' || c == '>'

private theorem endsName_append (shut : Shut text later) : endsName (text ++ later) = endsName text := by
  match text, shut with
  | [], shut => rw [shut.later_eq_nil]; rfl
  | [c], shut =>
      by_cases feed : c = '\n'
      · subst feed
        simp [endsName]
      · rw [(shut.tail feed).later_eq_nil]; rfl
  | c :: d :: rest, _ =>
      by_cases slash : c = '/'
      · subst slash
        by_cases bracket : d = '>'
        · subst bracket; rfl
        · simp [endsName, bracket]
      · simp [endsName, slash]

def namesBlockElement (text : List Char) : Bool :=
  blockElements.contains (String.ofList (lower (text.takeWhile Char.isAlphanum)))
    && endsName (text.drop (countWhile Char.isAlphanum text))

private theorem namesBlockElement_append (shut : Shut text later) :
    namesBlockElement (text ++ later) = namesBlockElement text := by
  simp only [namesBlockElement, takeWhile_append_shut shut Char.isAlphanum (by decide),
    countWhile_append shut Char.isAlphanum (by decide), drop_countWhile_append,
    endsName_append (shut.behind Char.isAlphanum (by decide))]

private theorem startsBlockElement_eq (text : List Char) :
    startsBlockElement text =
      if text.head? == some '/' then namesBlockElement (text.drop 1)
      else namesBlockElement text := by
  unfold startsBlockElement
  split <;> rfl

theorem startsBlockElement_append (shut : Shut text later) :
    startsBlockElement (text ++ later) = startsBlockElement text := by
  rw [startsBlockElement_eq, startsBlockElement_eq, head?_append_shut shut]
  cases text with
  | nil => rw [shut.later_eq_nil]; rfl
  | cons c rest =>
      simp only [List.head?_cons, List.cons_append, List.drop_succ_cons, List.drop_zero]
      by_cases slash : c = '/'
      · subst slash
        rw [if_pos (by decide), if_pos (by decide)]
        exact namesBlockElement_append (shut.tail (by decide))
      · rw [if_neg (by simpa using slash), if_neg (by simpa using slash), ← List.cons_append]
        exact namesBlockElement_append shut

/-! ## Complete tags -/

theorem skipPads?_append (shut : Shut text later) :
    RestAlike later (skipPads? text) (skipPads? (text ++ later)) := by
  have behind := shut.behind isPad rfl
  unfold skipPads?
  rw [countWhile_append shut isPad rfl, drop_countWhile_append]
  cases isRest : text.drop (countWhile isPad text) with
  | nil =>
      rw [isRest] at behind
      rw [behind.later_eq_nil]
      exact RestAlike.nil _
  | cons c rest =>
      rw [isRest] at behind
      by_cases feed : c = '\n'
      · subst feed
        exact ⟨rfl, by simp⟩
      · by_cases ret : c = '\r'
        · subst ret
          exact ⟨rfl, by simp⟩
        · simp only [List.cons_append]
          split
          · next eq => exact absurd (List.cons.inj eq).1 feed
          · next eq => exact absurd (List.cons.inj eq).1 ret
          · split
            · next eq => exact absurd (List.cons.inj eq).1 feed
            · next eq => exact absurd (List.cons.inj eq).1 ret
            · exact ⟨rfl, by simpa using behind⟩

private theorem quotedValue?_append {quote : Char} (other : quote ≠ '\n') :
    ∀ {text : List Char}, Shut text later →
      RestAlike later (quotedValue? quote text) (quotedValue? quote (text ++ later))
  | [], shut => by
      rw [shut.later_eq_nil]
      exact RestAlike.nil _
  | c :: rest, shut => by
      rw [List.cons_append, quotedValue?, quotedValue?]
      split
      · next isQuote =>
          rw [beq_iff_eq] at isQuote
          subst isQuote
          exact ⟨rfl, by simpa using shut.tail other⟩
      · split
        · exact ⟨rfl, by simp⟩
        · next ends =>
            refine quotedValue?_append other (shut.tail ?_)
            rintro rfl
            exact ends (by decide)

private theorem attributeName?_append (shut : Shut text later) :
    attributeName? (text ++ later) = attributeName? text
      ∧ ∀ length ∈ attributeName? text,
          0 < length ∧ length ≤ text.length ∧ Shut (text.drop length) later := by
  cases text with
  | nil =>
      rw [shut.later_eq_nil]
      simp [attributeName?]
  | cons c rest =>
      rw [List.cons_append, attributeName?, attributeName?]
      split
      · next starts =>
          have tailShut : Shut rest later := by
            refine shut.tail ?_
            rintro rfl
            exact absurd starts (by decide)
          rw [countWhile_append tailShut _ (by decide)]
          refine ⟨rfl, ?_⟩
          simp only [Option.mem_some_iff, forall_eq', Nat.add_comm 1, List.drop_succ_cons,
            List.length_cons, Nat.add_le_add_iff_right]
          exact ⟨by omega, countWhile_le _ _, tailShut.behind _ (by decide)⟩
      · simp

private theorem attributeValue?_append (shut : Shut text later) :
    RestAlike later (attributeValue? text) (attributeValue? (text ++ later)) := by
  cases text with
  | nil =>
      rw [shut.later_eq_nil]
      exact RestAlike.nil _
  | cons c rest =>
      rw [List.cons_append, attributeValue?, attributeValue?]
      split
      · next quoted =>
          have other : c ≠ '\n' := by
            rintro rfl
            exact absurd quoted (by decide)
          exact quotedValue?_append other (shut.tail other)
      · split
        · exact ⟨rfl, by simp⟩
        · obtain ⟨alike, behind⟩ := dropWhile_append_shut shut (fun d =>
            !(" =<>\n\r".toList.contains d || d == Text.Symbol.quote
              || d == Text.Symbol.apostrophe || d == Text.Symbol.backtick)) (by decide)
          rw [List.cons_append] at alike
          rw [alike]
          exact ⟨rfl, by simpa using behind⟩

def behindName? (afterName : List Char) : Option (List Char) :=
  (skipPads? afterName).bind fun afterPads =>
    match afterPads with
    | '=' :: rest => (skipPads? rest).bind attributeValue?
    | _ => some afterName

private theorem attribute?_eq (text : List Char) :
    attribute? text
      = (attributeName? text).bind fun length => behindName? (text.drop length) := rfl

private theorem behindName?_append (shut : Shut text later) :
    RestAlike later (behindName? text) (behindName? (text ++ later)) := by
  obtain ⟨alike, padsShut⟩ := skipPads?_append shut
  unfold behindName?
  rw [alike]
  cases isPads : skipPads? text with
  | none => exact ⟨rfl, by simp⟩
  | some afterPads =>
      have behind := padsShut afterPads isPads
      simp only [Option.map_some, Option.bind_some]
      cases afterPads with
      | nil =>
          rw [behind.later_eq_nil]
          exact ⟨by simp, fun _ _ => Shut.nil _⟩
      | cons c rest =>
          by_cases equals : c = '='
          · subst equals
            exact RestAlike.bind (skipPads?_append (behind.tail (by decide)))
              fun value _ valueShut => attributeValue?_append valueShut
          · simp only [List.cons_append]
            split
            · next eq => exact absurd (List.cons.inj eq).1 equals
            · split
              · next eq => exact absurd (List.cons.inj eq).1 equals
              · exact ⟨rfl, by simpa using shut⟩

private theorem attribute?_append (shut : Shut text later) :
    RestAlike later (attribute? text) (attribute? (text ++ later)) := by
  obtain ⟨nameAlike, nameShut⟩ := attributeName?_append shut
  rw [attribute?_eq, attribute?_eq, nameAlike]
  cases isName : attributeName? text with
  | none => exact ⟨rfl, by simp⟩
  | some length =>
      obtain ⟨-, inside, behind⟩ := nameShut length isName
      simp only [Option.bind_some]
      rw [List.drop_append_of_le_length inside]
      exact behindName?_append behind

/-! ### Lengths -/

theorem skipPads?_length {rest : List Char} (read : skipPads? text = some rest) :
    rest.length ≤ text.length := by
  unfold skipPads? at read
  dsimp only at read
  split at read
  · cases read
  · cases read
  · rw [← Option.some.inj read, List.length_drop]
    exact Nat.sub_le _ _

private theorem quotedValue?_length {quote : Char} :
    ∀ {text rest : List Char}, quotedValue? quote text = some rest → rest.length ≤ text.length
  | [], _, read => by cases read
  | c :: text, rest, read => by
      rw [quotedValue?] at read
      split at read
      · rw [← Option.some.inj read, List.length_cons]
        omega
      · split at read
        · cases read
        · have shorter := quotedValue?_length read
          rw [List.length_cons]
          omega

private theorem attributeValue?_length {rest : List Char} (read : attributeValue? text = some rest) :
    rest.length ≤ text.length := by
  cases text with
  | nil => cases read
  | cons c text =>
      rw [attributeValue?] at read
      split at read
      · have shorter := quotedValue?_length read
        rw [List.length_cons]
        omega
      · split at read
        · cases read
        · rw [← Option.some.inj read]
          exact (List.dropWhile_suffix _).length_le

private theorem behindName?_length {rest : List Char} (read : behindName? text = some rest) :
    rest.length ≤ text.length := by
  rw [behindName?, Option.bind_eq_some_iff] at read
  obtain ⟨afterPads, isPads, read⟩ := read
  have padsLength := skipPads?_length isPads
  split at read
  · rw [Option.bind_eq_some_iff] at read
    obtain ⟨value, isValue, read⟩ := read
    have valueLength := skipPads?_length isValue
    have restLength := attributeValue?_length read
    rw [List.length_cons] at padsLength
    omega
  · cases read
    exact Nat.le_refl _

private theorem attribute?_length {rest : List Char} (read : attribute? text = some rest) :
    rest.length < text.length := by
  rw [attribute?_eq, Option.bind_eq_some_iff] at read
  obtain ⟨length, isName, read⟩ := read
  obtain ⟨-, bounds⟩ := attributeName?_append (Shut.nil text)
  obtain ⟨positive, inside, -⟩ := bounds length isName
  have shorter := behindName?_length read
  rw [List.length_drop] at shorter
  omega

/-- Any fuel above the length of the text reads the same attributes, whatever follows. -/
theorem attributes?_append :
    ∀ (fuel more : Nat) {text : List Char}, text.length < fuel → text.length < more →
      Shut text later → RestAlike later (attributes? fuel text) (attributes? more (text ++ later))
  | fuel + 1, more + 1, text, enough, enoughMore, shut => by
      obtain ⟨alike, padsShut⟩ := skipPads?_append shut
      rw [attributes?, attributes?, alike]
      cases isPads : skipPads? text with
      | none => exact ⟨rfl, by simp⟩
      | some rest =>
          have behind := padsShut rest isPads
          have restLength := skipPads?_length isPads
          simp only [Option.map_some, Option.bind_eq_bind, Option.bind_some]
          cases rest with
          | nil =>
              rw [behind.later_eq_nil]
              exact RestAlike.nil _
          | cons c tail =>
              rw [List.cons_append]
              dsimp only
              by_cases ends : (c == '/' || c == '>') = true
              · rw [if_pos ends, if_pos ends]
                exact ⟨rfl, by simpa using behind⟩
              · rw [if_neg ends, if_neg ends]
                have sameLength : ((c :: (tail ++ later)).length == (text ++ later).length)
                    = ((c :: tail).length == text.length) := by
                  rw [← List.cons_append, List.length_append, List.length_append,
                    Bool.eq_iff_iff, beq_iff_eq, beq_iff_eq, Nat.add_right_cancel_iff]
                rw [sameLength]
                split
                · exact ⟨rfl, by simp⟩
                · refine RestAlike.bind (attribute?_append behind) ?_
                  intro next isNext nextShut
                  have shorter := attribute?_length isNext
                  exact attributes?_append fuel more (by omega) (by omega) nextShut

def behindTagName? (closes : Bool) (rest : List Char) : Option (List Char) :=
  (if closes then some rest else attributes? (rest.length + 1) rest).bind fun rest =>
    let rest := rest.drop (countWhile isPad rest)
    let rest := if !closes && rest.head? == some '/' then rest.drop 1 else rest
    match rest with
    | '>' :: after => some after
    | _ => none

private theorem tag?_eq (text : List Char) :
    tag? text =
      let closes := (text.drop 1).head? == some '/'
      let inner := if closes then (text.drop 1).drop 1 else text.drop 1
      if !(inner.head?.any Char.isAlpha) then none
      else behindTagName? closes (inner.drop (countWhile (fun c => c.isAlphanum || c == '-') inner)) := by
  unfold tag? behindTagName?
  dsimp only
  split <;> rfl

def closeTag? (rest : List Char) : Option (List Char) :=
  match rest with
  | '>' :: after => some after
  | _ => none

private theorem closeTag?_append (shut : Shut text later) :
    RestAlike later (closeTag? text) (closeTag? (text ++ later)) := by
  cases text with
  | nil =>
      rw [shut.later_eq_nil]
      exact RestAlike.nil _
  | cons c rest =>
      by_cases bracket : c = '>'
      · subst bracket
        exact ⟨rfl, by simpa [closeTag?] using shut.tail (by decide)⟩
      · exact ⟨by simp [closeTag?, bracket], by simp [closeTag?, bracket]⟩

private theorem behindTagName?_append (closes : Bool) (shut : Shut text later) :
    RestAlike later (behindTagName? closes text) (behindTagName? closes (text ++ later)) := by
  have read : RestAlike later (if closes then some text else attributes? (text.length + 1) text)
      (if closes then some (text ++ later)
        else attributes? ((text ++ later).length + 1) (text ++ later)) := by
    cases closes with
    | true => exact ⟨rfl, by simpa using shut⟩
    | false =>
        refine attributes?_append _ _ (Nat.lt_succ_self _) ?_ shut
        rw [List.length_append]
        omega
  refine RestAlike.bind read ?_
  intro rest _ restShut
  have behind := restShut.behind isPad rfl
  dsimp only
  rw [countWhile_append restShut isPad rfl, drop_countWhile_append, head?_append_shut behind]
  by_cases slash : (!closes && (rest.drop (countWhile isPad rest)).head? == some '/') = true
  · rw [if_pos slash, if_pos slash]
    cases isRest : rest.drop (countWhile isPad rest) with
    | nil => simp [isRest] at slash
    | cons c tail =>
        rw [isRest] at behind slash
        refine closeTag?_append (behind.tail ?_)
        rintro rfl
        simp at slash
  · rw [if_neg slash, if_neg slash]
    exact closeTag?_append behind

/-- A complete tag lies on its line. Its opening bracket is the first character. -/
theorem tag?_append (rest : List Char) (shut : Shut rest later) :
    RestAlike later (tag? ('<' :: rest)) (tag? ('<' :: rest ++ later)) := by
  rw [tag?_eq, tag?_eq]
  simp only [List.cons_append, List.drop_succ_cons, List.drop_zero]
  rw [head?_append_shut shut]
  generalize isCloses : (rest.head? == some '/') = closes
  have innerShut : Shut (if closes then rest.drop 1 else rest) later := by
    cases closes with
    | false => exact shut
    | true =>
        cases rest with
        | nil => simp at isCloses
        | cons c tail =>
            refine shut.tail ?_
            rintro rfl
            simp at isCloses
  have innerAlike : (if closes then (rest ++ later).drop 1 else rest ++ later)
      = (if closes then rest.drop 1 else rest) ++ later := by
    cases closes with
    | false => rfl
    | true =>
        cases rest with
        | nil => simp at isCloses
        | cons c tail => rfl
  rw [innerAlike]
  generalize (if closes then rest.drop 1 else rest) = inner at innerShut ⊢
  rw [head?_append_shut innerShut,
    countWhile_append innerShut (fun c => c.isAlphanum || c == '-') (by decide),
    drop_countWhile_append]
  split
  · exact ⟨rfl, by simp⟩
  · exact behindTagName?_append closes (innerShut.behind _ (by decide))

theorem startsCompleteTag_append (rest : List Char) (shut : Shut rest later) :
    startsCompleteTag ('<' :: rest ++ later) = startsCompleteTag ('<' :: rest) := by
  obtain ⟨alike, restShut⟩ := tag?_append rest shut
  unfold startsCompleteTag
  rw [alike]
  cases isTag : tag? ('<' :: rest) with
  | none => rfl
  | some after =>
      simp only [Option.map_some]
      rw [blankLine?_append (restShut after isTag)]

end Tangle.Markdown.Html
