/-!
# Faults of a markup text

What makes a text no markup document, cause by cause, and the one wording of each. A *syntax* fault
is a piece of markup that does not end or cannot be told; an *ill-formed* text has whole pieces that
do not fit together. Faults of character and entity references in attribute values come with the
byte range they were found at. A reader of bytes has faults of its own: those have the words it finds
for them.
-/

namespace Stubwright.Markup

/-- Why a text cannot be read as a sequence of tags. -/
inductive Fault where
  | unclosedTag
  /-- A tag ended inside a value quoted by the given character. -/
  | unclosedValue (quote : Char)
  | unclosedCharacterData
  | unclosedComment
  | unclosedDoctype
  | unclosedInstruction
  | unclosedDeclaration
  /-- After `<!` comes nothing that could start markup. -/
  | unknownMarkup
  | unclosedReference
  | namelessDoctype
  /-- An end tag where no element is open. -/
  | unmatchedEnd (name : String)
  /-- An end tag that names another element than the innermost open one. -/
  | mismatchedEnd (opened found : String)
  /-- Anything else, in the words of who reads markup. -/
  | other (text : String)
  /-- A name or a value that is no text, in the words of who decodes it. -/
  | encoding (text : String)
  deriving DecidableEq, Repr, Inhabited

/-- What kind of fault it is. -/
def Fault.label : Fault → String
  | encoding _ => "UTF-8 error: "
  | _ => "XML parsing error: "

/-- The wording of a fault. -/
def Fault.message : Fault → String
  | unclosedTag => "syntax error: tag not closed: `>` not found before end of input"
  | unclosedValue quote =>
    "syntax error: attribute value not closed: `" ++ quote.toString ++
      "` not found before end of input"
  | unclosedCharacterData => "syntax error: CDATA not closed: `]]>` not found before end of input"
  | unclosedComment => "syntax error: comment not closed: `-->` not found before end of input"
  | unclosedDoctype => "syntax error: DOCTYPE not closed: `>` not found before end of input"
  | unclosedInstruction =>
    "syntax error: processing instruction not closed: `?>` not found before end of input"
  | unclosedDeclaration =>
    "syntax error: XML declaration not closed: `?>` not found before end of input"
  | unknownMarkup => "syntax error: unknown or missed symbol in markup"
  | unclosedReference =>
    "ill-formed document: entity or character reference not closed: `;` not found before end of input"
  | namelessDoctype =>
    "ill-formed document: `<!DOCTYPE>` declaration does not contain a name of a document type"
  | unmatchedEnd name =>
    "ill-formed document: close tag `</" ++ name ++ ">` does not match any open tag"
  | mismatchedEnd opened found =>
    "ill-formed document: expected `</" ++ opened ++ ">`, but `</" ++ found ++ ">` was found"
  | other text => text
  | encoding text => text

/-- Why a reference inside a value stands for no character. -/
inductive ReferenceFault where
  | signedNumber
  | noDigits
  | badDigit
  | tooLarge
  | zero
  | noCharacter (code : Nat)
  deriving DecidableEq, Repr, Inhabited

/-- The wording of a fault in a numeric reference. -/
def ReferenceFault.message : ReferenceFault → String
  | signedNumber => "unexpected number sign"
  | noDigits => "cannot parse integer from empty string"
  | badDigit => "invalid digit found in string"
  | tooLarge => "number too large to fit in target type"
  | zero => "0x0 character is not permitted in XML"
  | noCharacter code => "`" ++ toString code ++ "` is not a valid codepoint"

/-- Why the references in a value cannot be resolved. Ranges count bytes of the value. -/
inductive EscapeFault where
  | unterminated (start stop : Nat)
  | unknownEntity (start stop : Nat) (name : String)
  | badNumber (fault : ReferenceFault)
  /-- Anything else, in the words of who reads the value. -/
  | other (text : String)
  deriving DecidableEq, Repr, Inhabited

/-- The wording of a fault in an escaped value. -/
def EscapeFault.message : EscapeFault → String
  | unterminated start stop =>
    "Error while escaping character at range " ++ toString start ++ ".." ++ toString stop ++
      ": Cannot find ';' after '&'"
  | unknownEntity start stop name =>
    "at " ++ toString start ++ ".." ++ toString stop ++ ": unrecognized entity `" ++ name ++ "`"
  | badNumber fault => "invalid character reference: " ++ fault.message
  | other text => text

end Stubwright.Markup
