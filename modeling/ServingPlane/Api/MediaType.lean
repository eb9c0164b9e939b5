import ServingPlane.Text.Percent

/-! # Media types

    The label of a request body: a type, a subtype and parameters.  A body
    is a JSON document if its subtype is `json` on either side of its last
    plus sign; letter case does not matter, but a label that is not well
    formed says nothing. -/

namespace ServingPlane.MediaType

/-- Whether a character may stand in a name or a plain value. -/
def isToken (c : Char) : Bool :=
  c.isAlphanum || ['!', '#', '$', '%', '&', '\x27', '*', '+', '-', '.', '^', '_', '\x60', '|', '~'].contains c

/-- Whether a character may stand in a quoted value; a label is printing ASCII throughout. -/
def isQuotable (c : Char) : Bool := 31 < c.toNat && c.toNat < 0x7f

/-- Take a quoted value up to the closing quote, and blanks up to the end
    or the next semicolon. -/
def afterQuoted (cs : List Char) : Option (List Char) :=
  match cs with
  | [] => none
  | first :: more =>
    if !isQuotable first then none
    else match more.span fun c => c != '"' && isQuotable c with
      | (_, '"' :: rest) =>
        match rest.dropWhile (· == ' ') with
        | [] => some []
        | ';' :: next => some next
        | _ => none
      | _ => none

/-- Take a value, and the semicolon after it. -/
def afterValue (cs : List Char) : Option (List Char) :=
  match cs with
  | '"' :: quoted => afterQuoted quoted
  | _ =>
    match cs.span isToken with
    | (_, []) => some []
    | (_ :: _, ';' :: next) => some next
    | _ => none

/-- Whether the rest of a label is a list of parameters.  Every parameter
    takes at least a character, so the length bounds their number. -/
def areParameters : Nat → List Char → Bool
  | 0, cs => cs.isEmpty
  | fuel + 1, cs =>
    match cs.dropWhile (· == ' ') with
    | [] => true
    | start =>
      match start.span isToken with
      | (_ :: _, '=' :: value) =>
        match afterValue value with
        | some rest => areParameters fuel rest
        | none => false
      | _ => false

/-- The type and subtype of a well-formed label. -/
def read? (label : String) : Option (List Char × List Char) :=
  match label.toList.span isToken with
  | (type@(_ :: _), '/' :: rest) =>
    match rest.span isToken with
    | (_ :: _, c :: parameters) =>
      if c == ';' && areParameters parameters.length parameters then
        some (type, rest.takeWhile isToken)
      else none
    | (subtype@(_ :: _), []) => some (type, subtype)
    | _ => none
  | _ => none

/-- A subtype up to its last plus sign, and what follows that.  A sign at
    the very start belongs to the name. -/
def splitSuffix (subtype : List Char) : List Char × Option (List Char) :=
  match subtype.reverse.span (· != '+') with
  | (suffix, _ :: name@(_ :: _)) => (name.reverse, some suffix.reverse)
  | _ => (subtype, none)

/-- Whether a subtype is `json` before or after its plus sign. -/
def isJsonSubtype (subtype : List Char) : Bool :=
  let (name, suffix) := splitSuffix subtype
  name == "json".toList || suffix == some "json".toList

/-- Whether a label announces a JSON document. -/
def isJson (label : String) : Bool :=
  match read? label with
  | some (type, subtype) =>
    type.map Char.toLower == "application".toList && isJsonSubtype (subtype.map Char.toLower)
  | none => false

end ServingPlane.MediaType
