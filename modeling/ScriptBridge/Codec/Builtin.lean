import ScriptBridge.Calendar.Locale
import ScriptBridge.Codec.Basic
import ScriptBridge.Text.Search
/-!
The codecs of the script language's own types.

Each one reads `missing value` as the missing value. The types that must parse, that is numbers,
booleans, dates, points, rectangles and colors, refuse blank text; the others read it as missing.
Text is the exception on both sides: whatever stands there is text.

A rectangle is written by its corners and kept by origin and size; the corner that is not its origin
is found by adding 32-bit numbers, which wrap around. A real keeps its fraction, and a date is
written as a call of the script's date handler, because the script language has no literal for dates
that does not depend on the locale.
-/
namespace ScriptBridge.Codec

/-- The classes of the script language under some names and codes. -/
def classes (pairs : List (String × String)) : List TypeClass :=
  pairs.map fun (name, code) => .builtin name code

/-! ## Text -/

/-- Text in every form that the script language has for it. -/
def text : Codec where
  valueType := .text
  scriptTypes := classes [("text", "ctxt"), ("unicode text", "utxt"),
    ("styled unicode text", "sutx"), ("styled text", "STXT"), ("international text", "itxt"),
    ("number or string", "ns  "), ("list or string", "ls  "), ("alias or string", "sf  "),
    ("string", "TEXT"), ("version", "vers")]
  decode reference :=
    match reference.object with
    | some object => .ok (.text (String.ofList (Literal.unquote object.toList)))
    | none => .ok .null
  encode
    | .text s => .ok (String.ofList (Literal.quote s.toList))
    | other => .error (.config (.notEncodable "text" other))

/-! ## Numbers -/

/-- Reads a number from trimmed text. -/
def decodeNumber (read : List Char → Except Number.Fault Value) (reference : Reference) :
    Except ScriptError Value :=
  if isMissingValue reference.object then .ok .null
  else
    let s := Text.trim reference.objectText.toList
    match read s with
    | .ok value => .ok value
    | .error fault => .error (.format (.number (String.ofList s) fault))

/-- Writes a number of any type. -/
def encodeNumber (codec : String) : Value → Except ScriptError String
  | .integer n => .ok (Number.showInt n.toInt)
  | .short n => .ok (Number.showInt n.toInt)
  | .long n => .ok (Number.showInt n.toInt)
  | .float r => .ok r.render
  | .double r => .ok r.render
  | other => .error (.config (.notEncodable codec other))

/-- A codec for one type of number. -/
def number (valueType : ValueType) (names : List (String × String))
    (read : List Char → Except Number.Fault Value) : Codec where
  valueType := valueType
  scriptTypes := classes names
  decode := decodeNumber read
  encode := encodeNumber valueType.render

def integer : Codec :=
  number .integer [("integer", "long"), ("unsigned integer", "magn")]
    fun s => (Number.readInt32 s).map .integer

def short : Codec :=
  number .short [("small integer", "shor")] fun s => (Number.readInt16 s).map .short

def long : Codec :=
  number .long [("double integer", "comp")] fun s => (Number.readInt64 s).map .long

def float : Codec :=
  number .float [("small real", "sing")] fun s => (Single.read s).map .float

def double : Codec :=
  number .double [("number", "nmbr"), ("real", "doub")] fun s => (Double.read s).map .double

/-! ## Booleans -/

/-- Truth; whatever is neither blank nor `true` is false. -/
def boolean : Codec where
  valueType := .boolean
  scriptTypes := classes [("boolean", "bool")]
  decode reference :=
    let s := Text.trim reference.objectText.toList
    if isMissingValue reference.object then .ok .null
    else if s.isEmpty then .error (.format (.boolean ""))
    else .ok (.boolean (s.map Char.toLower = "true".toList))
  encode
    | .boolean b => .ok (if b then "true" else "false")
    | other => .error (.config (.notEncodable "boolean" other))

/-! ## Dates -/

open Calendar in
/-- The layout of dates in the form `2024-03-02T15:04:05Z`. -/
def universalDate : Layout :=
  [.number .year, .fixed ['-'], .number .month, .fixed ['-'], .number .day, .fixed ['T'],
    .number .hour, .fixed [':'], .number .minute, .fixed [':'], .number .second, .fixed ['Z']]

open Calendar in
/-- The layouts of American dates that the locales miss. -/
def americanDates : List Layout :=
  let time : Layout := [.number .hourOfHalf, .fixed [':'], .number .minute, .fixed [':'],
    .number .second, .blank, .halfOfDay]
  let shortTime : Layout := [.number .hourOfHalf, .fixed [':'], .number .minute, .blank, .halfOfDay]
  let dayAndYear : Layout := [.blank, .number .day, .fixed [','], .blank, .number .year]
  let longDate : Layout := .monthName true :: dayAndYear
  let shortDate : Layout := .monthName false :: dayAndYear
  let weekday : Layout := [.weekdayName, .fixed [','], .blank]
  let numbers : Layout :=
    [.number .month, .fixed ['/'], .number .day, .fixed ['/'], .number .yearOfCentury]
  let joined : Layout := [.blank, .fixed ['a', 't'], .blank]
  [weekday ++ longDate ++ joined ++ time, weekday ++ longDate ++ [.blank] ++ time,
    longDate ++ joined ++ time, longDate ++ [.blank] ++ time,
    shortDate ++ [.fixed [','], .blank] ++ time, shortDate ++ [.blank] ++ time,
    numbers ++ [.fixed [','], .blank] ++ shortTime, numbers ++ [.blank] ++ shortTime]

/-- Reads the text of a date: the universal form, or what stands in quotes by the locale, then by
the American locale, then by the American layouts. -/
def readDate (locale : Calendar.Locale) (s : List Char) : Option CivilTime :=
  match universalDate.read (Text.trim s) with
  | some date => some date
  | none =>
    (Text.betweenOuter? '"' s).bind fun quoted =>
      (locale.read (String.ofList quoted)).or <|
        ((Calendar.Locale.ofIdentifier "en_US").read (String.ofList quoted)).or <|
          americanDates.findSome? (·.read quoted)

/-- A date as a call of the script's date handler. -/
def dateCall (t : CivilTime) : String :=
  let fields := [t.month, t.day, t.hour, t.minute, t.shownSecond]
  let numbers := fields.map fun n => Number.showInt (Int.ofNat n)
  "my createDate(" ++ ", ".intercalate (Calendar.renderYear t.year :: numbers) ++ ")"

/-- Dates, read first by a locale. -/
def date (locale : Calendar.Locale) : Codec where
  valueType := .date
  scriptTypes := classes [("date", "ldt ")]
  decode reference :=
    if isMissingValue reference.object then .ok .null
    else
      match readDate locale reference.objectText.toList with
      | some t => .ok (.date t.toInstant)
      | none => .error (.format (.date reference.objectText))
  encode
    | .date i => .ok (dateCall i.toCivil)
    | other => .error (.config (.notEncodable "date" other))

/-! ## Files -/

/-- The path of a file named by volume and folders divided by colons. -/
def mountedPath (colons : List Char) : String :=
  String.ofList ("/Volumes/".toList ++ colons.map fun c => if c = ':' then '/' else c)

/-- The file of a specifier: quoted and divided by colons, a quoted path, or a bare path. -/
def readFile (object : String) : FileSpecifier :=
  let s := object.toList
  let isPath := Text.contains s "POSIX file".toList
  let path := match Text.betweenOuter? '"' s with
    | some inner =>
      if isPath then String.ofList inner
      else if s.contains ':' then mountedPath inner
      else object
    | none => object
  { path, specifier := object }

/-- The alias of a specifier: a bare path becomes a specifier of that path. -/
def readAlias (object : String) : FileSpecifier :=
  if object.toList.head? = some '/' then .ofPath object
  else
    let path := match Text.betweenOuter? '"' object.toList with
      | some inner => mountedPath inner
      | none => object
    { path, specifier := object }

/-- Writes a file or an alias as its specifier. -/
def encodeFile : Value → Except ScriptError String
  | .file f => .ok f.specifier
  | .fileAlias f => .ok f.specifier
  | other => .error (.config (.notEncodable "file" other))

def file : Codec where
  valueType := .file
  scriptTypes := classes [("file", "file")]
  decode reference :=
    if isMissing reference.object then .ok .null
    else .ok (.file (readFile (Text.trimmed reference.objectText)))
  encode := encodeFile

def fileAlias : Codec where
  valueType := .fileAlias
  scriptTypes := classes [("alias", "alis")]
  decode reference :=
    if isMissing reference.object then .ok .null
    else .ok (.fileAlias (readAlias (Text.trimmed reference.objectText)))
  encode := encodeFile

/-! ## Binary data -/

/-- What a data literal starts with. -/
def dataOpening : List Char := "«data ".toList

/-- The payload of a data literal, whose kind takes four bytes. -/
def readData? (s : List Char) : Option Data :=
  (Text.between? dataOpening ['»'] (Text.trim s)).bind fun body =>
    (Text.firstBytes? 4 body).bind fun (kind, digits) =>
      (Hex.bytes? digits).map fun bytes => { kind := String.ofList kind, bytes }

/-- A payload as a data literal. -/
def dataLiteral (d : Data) : String :=
  String.ofList (dataOpening ++ d.kind.toList ++ Hex.upper d.bytes ++ ['»'])

/-- A codec for one flavour of binary data. -/
def binary (valueType : ValueType) (names : List (String × String)) (wrap : Data → Value) :
    Codec where
  valueType := valueType
  scriptTypes := classes names
  decode reference :=
    if isMissing reference.object then .ok .null
    else
      match readData? reference.objectText.toList with
      | some d => .ok (wrap d)
      | none => .error (.format (.data reference.objectText))
  encode
    | .data d => .ok (dataLiteral d)
    | .picture d => .ok (dataLiteral d)
    | .typedData d => .ok (dataLiteral d)
    | other => .error (.config (.notEncodable "data" other))

def data : Codec := binary .data [("data", "rdat")] .data

def picture : Codec := binary .picture [("picture", "PICT")] .picture

def typedData : Codec := binary .typedData [("tdta", "tdta"), ("raw data", "tdta")] .typedData

/-! ## Numbers in braces -/

/-- The numbers in braces of a text, which must be so many. -/
def readTuple (kind : TupleKind) (count : Nat) (text : String) : Except FormatError (List Int) :=
  match Text.between? ['\x7b'] ['\x7d'] (Text.trim text.toList) with
  | none => .error (.tuple kind text)
  | some inner =>
    let parts := (Text.splitOn (· == ',') inner).map Text.trim
    if parts.length ≠ count then .error (.tuple kind text)
    else parts.mapM fun part =>
      match Number.readInt64 part with
      | .ok n => .ok n.toInt
      | .error fault => .error (.number (String.ofList part) fault)

def braced (numbers : List Int) : String :=
  "\x7b" ++ ", ".intercalate (numbers.map Number.showInt) ++ "\x7d"

/-- Whether a number fits into 32 bits. -/
def fitsInt32 (n : Int) : Bool := -2147483648 ≤ n && n ≤ 2147483647

/-- Whether a number fits into 16 bits without a sign. -/
def fitsUInt16 (n : Int) : Bool := 0 ≤ n && n ≤ 65535

/-- Reads a compound of numbers, which must fit. -/
def decodeTuple (kind : TupleKind) (count : Nat) (build : List Int → Option Value)
    (reference : Reference) : Except ScriptError Value :=
  if isMissingValue reference.object then .ok .null
  else
    match readTuple kind count reference.objectText with
    | .error e => .error (.format e)
    | .ok numbers =>
      match build numbers with
      | some value => .ok value
      | none => .error (.format (.tuple kind reference.objectText))

def pointOf? : List Int → Option Value
  | [x, y] =>
    if fitsInt32 x && fitsInt32 y then some (.point { x := .ofInt x, y := .ofInt y }) else none
  | _ => none

def point : Codec where
  valueType := .point
  scriptTypes := classes [("point", "QDpt")]
  decode := decodeTuple .point 2 pointOf?
  encode
    | .point p => .ok (braced [p.x.toInt, p.y.toInt])
    | other => .error (.config (.notEncodable "point" other))

/-- The rectangle between two corners. -/
def rectangleOf? : List Int → Option Value
  | [left, top, right, bottom] =>
    if fitsInt32 left && fitsInt32 top && fitsInt32 (right - left) && fitsInt32 (bottom - top) then
      some (.rectangle { x := .ofInt left, y := .ofInt top, width := .ofInt (right - left),
                         height := .ofInt (bottom - top) })
    else none
  | _ => none

def rectangle : Codec where
  valueType := .rectangle
  scriptTypes := classes [("bounding rectangle", "qdrt"), ("rectangle", "qdrt")]
  decode := decodeTuple .rectangle 4 rectangleOf?
  encode
    | .rectangle r => .ok (braced [r.x.toInt, r.y.toInt, (r.x + r.width).toInt,
        (r.y + r.height).toInt])
    | other => .error (.config (.notEncodable "rectangle" other))

/-- The color of three channels. -/
def colorOf? : List Int → Option Value
  | [red, green, blue] =>
    if fitsUInt16 red && fitsUInt16 green && fitsUInt16 blue then
      some (.rgbColor { red := .ofNat red.toNat, green := .ofNat green.toNat,
                        blue := .ofNat blue.toNat })
    else none
  | _ => none

def rgbColor : Codec where
  valueType := .rgbColor
  scriptTypes := classes [("RGB color", "cRGB")]
  decode := decodeTuple .rgbColor 3 colorOf?
  encode
    | .rgbColor c => .ok (braced [c.red.toNat, c.green.toNat, c.blue.toNat])
    | other => .error (.config (.notEncodable "RGB color" other))

/-! ## Classes, records and references -/

def typeClass : Codec where
  valueType := .typeClass
  scriptTypes := classes [("class", "pcls"), ("type", "type"), ("type class", "type")]
  decode reference :=
    if isMissing reference.object then .ok .null
    else .ok (.typeClass (.ofAnswer reference.objectText reference.application))
  encode
    | .typeClass c =>
      match c.label.name.or c.label.code with
      | some s => .ok s
      | none => .error (.config .anonymousClass)
    | other => .error (.config (.notEncodable "type class" other))

/-- Keeps the reference as it is. -/
def decodeReference (reference : Reference) : Except ScriptError Value :=
  if isMissing reference.object then .ok .null else .ok (.reference reference)

/-- Writes the object half of a reference. -/
def encodeReference (value : Value) : Except ScriptError String :=
  match value.reference?.bind Reference.object with
  | some s => .ok s
  | none => .error (.config (.notAReference value))

def record : Codec where
  valueType := .record
  scriptTypes := classes [("record", "reco")]
  decode := decodeReference
  encode := encodeReference

def reference : Codec where
  valueType := .reference
  scriptTypes := classes
    [("reference", "obj "), ("specifier", "obj "), ("anything", "****"), ("any", "****")]
  decode := decodeReference
  encode := encodeReference

/-- The built-in codecs in the order in which they are consulted. -/
def builtin (dateLocale : String) : List Codec :=
  [text, integer, short, long, float, double, boolean, date (.ofIdentifier dateLocale), fileAlias,
    data, picture, typedData, file, point, rectangle, rgbColor, typeClass, record, reference]

end ScriptBridge.Codec
