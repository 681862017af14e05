import Stubwright.Markup.Event

/-!
# From text to events

    document text ──scan──▶ Transcript (events, then the end or a fault)

The scanner walks once over the text, keeps the names of the open elements, and gives the events it
met in order. A fault ends the transcript; the end of the text does so too, even inside an element.
Every step consumes at least one character, which is why the scan ends: each helper comes with the
fact that what it leaves is no longer than what it got.
-/

namespace Stubwright.Markup

/-- The events of a text, and the fault that ended it early, if any. -/
structure Transcript where
  events : List Event
  fault? : Option Fault
  deriving DecidableEq, Repr, Inhabited

/-- A transcript that ends in a fault at once. -/
def Transcript.failed (fault : Fault) : Transcript := ⟨[], some fault⟩

/-- Puts an event in front of a transcript. -/
def Transcript.cons (event : Event) (t : Transcript) : Transcript :=
  { t with events := event :: t.events }

/-! ### Looking ahead -/

/-- What follows the first occurrence of `mark`. -/
def afterMark? (mark : List Char) : List Char → Option (List Char)
  | [] => if mark.isEmpty then some [] else none
  | c :: cs =>
    if mark.isPrefixOf (c :: cs) then some ((c :: cs).drop mark.length) else afterMark? mark cs

theorem length_afterMark? {mark : List Char} :
    ∀ {cs after : List Char}, afterMark? mark cs = some after → after.length ≤ cs.length
  | [], after, h => by
    unfold afterMark? at h
    split at h <;> cases h
    exact Nat.le_refl _
  | c :: cs, after, h => by
    unfold afterMark? at h
    split at h
    · cases h
      simp only [List.length_drop]
      omega
    · exact Nat.le_succ_of_le (length_afterMark? h)

/-- Splits `cs` at the first `>` that is not inside quotes; `quote?` is the quote that is open. -/
def splitTag (quote? : Option Char) : List Char → Except Fault (List Char × List Char)
  | [] =>
    match quote? with
    | none => .error .unclosedTag
    | some q => .error (.unclosedValue q)
  | c :: cs =>
    let next? := match quote? with
      | none => if c == '"' || c == '\'' then some c else none
      | some q => if c == q then none else some q
    if quote?.isNone && c == '>' then .ok ([], cs)
    else match splitTag next? cs with
      | .error fault => .error fault
      | .ok (content, after) => .ok (c :: content, after)

theorem length_splitTag {quote? : Option Char} {cs content after : List Char}
    (h : splitTag quote? cs = .ok (content, after)) : after.length < cs.length := by
  induction cs generalizing quote? content with
  | nil => unfold splitTag at h; split at h <;> cases h
  | cons c cs ih =>
    simp only [splitTag] at h
    split at h
    · cases h; simp
    · split at h
      · cases h
      · next content' after' hs =>
        cases h
        exact Nat.lt_succ_of_lt (ih hs)

/-- Whether `cs` starts with `word`, ASCII letters in any case. -/
def startsWithWord (word cs : List Char) : Bool :=
  (cs.take word.length).map Char.toLower == word.map Char.toLower

/-! ### Document type declarations -/

/-- The keywords of declarations in which quotes hide a `>`. -/
def quotingDeclarations : List String := ["!ENTITY", "!ATTLIST", "!NOTATION"]

/-- What follows the declaration at the head of `cs`, which starts right after its `<`. -/
def afterInnerDeclaration? (cs : List Char) : Option (List Char) :=
  if "?".toList.isPrefixOf cs then afterMark? "?>".toList (cs.drop 1)
  else if "!--".toList.isPrefixOf cs then afterMark? "-->".toList (cs.drop 3)
  else if quotingDeclarations.any (·.toList.isPrefixOf cs) then
    match splitTag none cs with
    | .ok (_, after) => some after
    | .error _ => none
  else afterMark? ">".toList cs

theorem length_afterInnerDeclaration? {cs after : List Char}
    (h : afterInnerDeclaration? cs = some after) : after.length ≤ cs.length := by
  have hdrop : ∀ n, (cs.drop n).length ≤ cs.length := fun n => by simp
  unfold afterInnerDeclaration? at h
  split at h
  · exact Nat.le_trans (length_afterMark? h) (hdrop 1)
  · split at h
    · exact Nat.le_trans (length_afterMark? h) (hdrop 3)
    · split at h
      · split at h
        · next hs =>
          cases h
          exact Nat.le_of_lt (length_splitTag hs)
        · cases h
      · exact length_afterMark? h

/-- What follows a declaration whose internal subset is open. After the closing bracket the next `>`
ends it, quotes or not. -/
def afterSubset? (cs : List Char) : Option (List Char) :=
  match cs with
  | [] => none
  | ']' :: rest => afterMark? ">".toList rest
  | '<' :: rest =>
    match _h : afterInnerDeclaration? rest with
    | none => none
    | some after => afterSubset? after
  | _ :: rest => afterSubset? rest
termination_by cs.length
decreasing_by
  · have := length_afterInnerDeclaration? _h
    simp only [List.length_cons]
    omega
  · simp

theorem length_afterSubset? (cs : List Char) :
    ∀ {after}, afterSubset? cs = some after → after.length ≤ cs.length := by
  fun_induction afterSubset? cs with
  | case1 => intro after h; cases h
  | case2 rest => intro after h; exact Nat.le_succ_of_le (length_afterMark? h)
  | case3 rest hn => intro after h; cases h
  | case4 rest after' hs ih =>
    intro after h
    have h1 := ih h
    have h2 := length_afterInnerDeclaration? hs
    simp only [List.length_cons]
    omega
  | case5 c rest _ _ ih => intro after h; exact Nat.le_succ_of_le (ih h)

/-- What follows a document type declaration; `quote?` is the quote that is open. -/
def afterDoctype? (quote? : Option Char) : List Char → Option (List Char)
  | [] => none
  | c :: cs =>
    match quote? with
    | some q => afterDoctype? (if c == q then none else some q) cs
    | none =>
      if c == '>' then some cs
      else if c == '[' then afterSubset? cs
      else afterDoctype? (if c == '"' || c == '\'' then some c else none) cs

theorem length_afterDoctype? {quote? : Option Char} {cs after : List Char}
    (h : afterDoctype? quote? cs = some after) : after.length ≤ cs.length := by
  induction cs generalizing quote? with
  | nil => cases h
  | cons c cs ih =>
    simp only [afterDoctype?] at h
    split at h
    · exact Nat.le_succ_of_le (ih h)
    · split at h
      · cases h; simp
      · split at h
        · exact Nat.le_succ_of_le (length_afterSubset? cs h)
        · exact Nat.le_succ_of_le (ih h)

/-! ### Markup that leaves no event -/

/-- Skips a document type declaration, given what follows its `<`. -/
def skipDoctype (cs : List Char) : Except Fault (List Char) :=
  if startsWithWord "!DOCTYPE".toList cs then
    match afterDoctype? none (cs.drop 8) with
    | none => .error .unclosedDoctype
    | some after =>
      match skipSpace (cs.drop 8) with
      | '>' :: _ => .error .namelessDoctype
      | _ => .ok after
  else .error .unclosedDoctype

/-- Skips the part of `cs` after `opening` up to and with `mark`. -/
def skipTo (opening mark : String) (fault : Fault) (cs : List Char) : Except Fault (List Char) :=
  if opening.toList.isPrefixOf cs then
    match afterMark? mark.toList (cs.drop opening.length) with
    | some after => .ok after
    | none => .error fault
  else .error fault

/-- Skips a processing instruction, given what follows its `<`. -/
def skipInstruction (cs : List Char) : Except Fault (List Char) :=
  match afterMark? "?>".toList cs with
  | some after =>
    if "?>".toList.isPrefixOf cs then .error .unclosedInstruction else .ok after
  | none =>
    if "?xml".toList.isPrefixOf cs &&
        (cs.drop 4).head?.all (fun c => isSpace c || c == '?') then .error .unclosedDeclaration
    else .error .unclosedInstruction

/-- Skips markup that starts with an exclamation mark, given what follows its `<`. -/
def skipBang (cs : List Char) : Except Fault (List Char) :=
  match cs with
  | _ :: '[' :: _ => skipTo "![CDATA[" "]]>" .unclosedCharacterData cs
  | _ :: '-' :: _ => skipTo "!--" "-->" .unclosedComment cs
  | _ :: 'D' :: _ => skipDoctype cs
  | _ :: 'd' :: _ => skipDoctype cs
  | _ => .error .unknownMarkup

theorem length_skipDoctype {cs after : List Char} (h : skipDoctype cs = .ok after) :
    after.length ≤ cs.length := by
  unfold skipDoctype at h
  split at h
  · split at h
    · cases h
    · next ha =>
      split at h <;> cases h
      have := length_afterDoctype? ha
      simp only [List.length_drop] at this
      omega
  · cases h

theorem length_skipTo {opening mark : String} {fault : Fault} {cs after : List Char}
    (h : skipTo opening mark fault cs = .ok after) : after.length ≤ cs.length := by
  unfold skipTo at h
  split at h
  · split at h
    · next ha =>
      cases h
      have := length_afterMark? ha
      simp only [List.length_drop] at this
      omega
    · cases h
  · cases h

theorem length_skipInstruction {cs after : List Char} (h : skipInstruction cs = .ok after) :
    after.length ≤ cs.length := by
  unfold skipInstruction at h
  split at h
  · next ha =>
    split at h <;> cases h
    exact length_afterMark? ha
  · split at h <;> cases h

theorem length_skipBang {cs after : List Char} (h : skipBang cs = .ok after) :
    after.length ≤ cs.length := by
  unfold skipBang at h
  split at h
  · exact length_skipTo h
  · exact length_skipTo h
  · exact length_skipDoctype h
  · exact length_skipDoctype h
  · cases h

/-! ### The scan -/

/-- The tag with the given content: the name goes up to the first blank. -/
def Tag.ofContent (content : List Char) : Tag :=
  ⟨String.ofList (content.takeWhile (!isSpace ·)), content.dropWhile (!isSpace ·)⟩

/-- The name in an end tag: trailing blanks are no part of it, unless there is nothing else. -/
def endName (content : List Char) : String :=
  match (skipSpace content.reverse).reverse with
  | [] => String.ofList content
  | name => String.ofList name

/-- Whether plain text goes on with `c`. -/
def isText (c : Char) : Bool := c != '<' && c != '&'

/-- Whether a reference in text goes on with `c`. -/
def isTextReference (c : Char) : Bool := c != ';' && c != '&' && c != '<'

/-- One step of the scan: markup that leaves no event, or a tag. -/
inductive Piece where
  | silent
  | opening (tag : Tag)
  | selfClosing (tag : Tag)
  | closing (name : String)
  deriving DecidableEq, Repr

/-- The piece a tag's content makes: a final slash closes the element at once. -/
def Piece.ofContent (content : List Char) : Piece :=
  match content.reverse with
  | '/' :: content => .selfClosing (Tag.ofContent content.reverse)
  | _ => .opening (Tag.ofContent content)

/-- The piece that starts with `<`, given what follows it, and what follows the piece. -/
def markupPiece (cs : List Char) : Except Fault (Piece × List Char) :=
  match cs with
  | [] => .error .unclosedTag
  | '!' :: _ => (skipBang cs).map (.silent, ·)
  | '?' :: _ => (skipInstruction cs).map (.silent, ·)
  | '/' :: rest =>
    (splitTag none rest).map fun (content, after) => (.closing (endName content), after)
  | _ => (splitTag none cs).map fun (content, after) => (Piece.ofContent content, after)

theorem length_markupPiece {cs after : List Char} {piece : Piece}
    (h : markupPiece cs = .ok (piece, after)) : after.length ≤ cs.length := by
  have ofMap : ∀ {α : Type} {x : Except Fault α} {f : α → Piece × List Char} {y},
      x.map f = .ok y → ∃ a, x = .ok a ∧ f a = y := by
    intro α x f y hx
    cases x with
    | error => cases hx
    | ok a => exact ⟨a, rfl, by cases hx; rfl⟩
  unfold markupPiece at h
  split at h
  · cases h
  · obtain ⟨a, ha, hf⟩ := ofMap h
    cases hf
    exact length_skipBang ha
  · obtain ⟨a, ha, hf⟩ := ofMap h
    cases hf
    exact length_skipInstruction ha
  · obtain ⟨a, ha, hf⟩ := ofMap h
    cases hf
    exact Nat.le_succ_of_le (Nat.le_of_lt (length_splitTag ha))
  · obtain ⟨a, ha, hf⟩ := ofMap h
    cases hf
    exact Nat.le_of_lt (length_splitTag ha)

/-- The piece at the head of `c :: cs`, and what follows it. -/
def nextPiece (c : Char) (cs : List Char) : Except Fault (Piece × List Char) :=
  if c == '<' then markupPiece cs
  else if c == '&' then
    match cs.dropWhile isTextReference with
    | ';' :: after => .ok (.silent, after)
    | _ => .error .unclosedReference
  else .ok (.silent, cs.dropWhile isText)

theorem length_nextPiece {c : Char} {cs after : List Char} {piece : Piece}
    (h : nextPiece c cs = .ok (piece, after)) : after.length ≤ cs.length := by
  unfold nextPiece at h
  split at h
  · exact length_markupPiece h
  · split at h
    · split at h
      · next d =>
        cases h
        have := (List.dropWhile_suffix (l := cs) isTextReference).length_le
        rw [d] at this
        exact Nat.le_of_succ_le this
      · cases h
    · cases h
      exact (List.dropWhile_suffix _).length_le

/-- Scans `cs` inside the elements `opened`, innermost first. -/
def scanFrom (opened : List String) (cs : List Char) : Transcript :=
  match _hs : skipSpace cs with
  | [] => ⟨[], none⟩
  | c :: rest =>
    match _hp : nextPiece c rest with
    | .error fault => .failed fault
    | .ok (.silent, after) => scanFrom opened after
    | .ok (.selfClosing tag, after) => (scanFrom opened after).cons (.empty tag)
    | .ok (.opening tag, after) => (scanFrom (tag.name :: opened) after).cons (.start tag)
    | .ok (.closing name, after) =>
      match opened with
      | [] => .failed (.unmatchedEnd name)
      | innermost :: outer =>
        if name == innermost then (scanFrom outer after).cons (.close name)
        else .failed (.mismatchedEnd innermost name)
termination_by cs.length
decreasing_by
  all_goals
    have hcs : (skipSpace cs).length ≤ cs.length := (List.dropWhile_suffix _).length_le
    have hp := length_nextPiece _hp
    rw [_hs] at hcs
    simp only [List.length_cons] at hcs
    omega

/-- The byte order mark, which may stand in front of a document. -/
def byteOrderMark : Char := '\uFEFF'

/-- The events of a document. -/
def scan (text : String) : Transcript :=
  match text.toList with
  | c :: cs => if c == byteOrderMark then scanFrom [] cs else scanFrom [] (c :: cs)
  | [] => scanFrom [] []

end Stubwright.Markup
