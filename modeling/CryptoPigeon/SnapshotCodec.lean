import CryptoPigeon.LoopPrograms
import CryptoPigeon.StorageExport

/-! # The snapshot codec of Android

`encode` writes the JSON of a snapshot into gzip, `decode` reads it byte by byte with one byte of
look-ahead and writes the files into a stage. The inflated bytes and whether the stream then ends
or breaks off are what the decoder is given. -/
namespace SnapshotCodec

open LoopPrograms
open JsonText (base64 base64Value decodeBase64 escape)
open StorageExport (isAttachmentName memberJson vmkKey hkdfSaltKey databaseKey filesKey
  closingBraces MAX_FILES)
open SevenOfSeven (Bytes Text)

def MAX_COMPRESSED : Nat := 64 * 1024 * 1024 - 16

def MAX_PLAINTEXT : Nat := 256 * 1024 * 1024

/-! ## Encoding -/

/-- An entry of the directory `attachments`, a regular file or not. -/
structure Entry where
  name : Text
  regular : Bool
  content : Bytes
  deriving DecidableEq, Repr

structure Directory where
  entries : List Entry
  distinct : (entries.map Entry.name).Nodup

def utf8 (t : Text) : Bytes := t.flatMap String.utf8EncodeChar

/-- `VaultWire.quote` -/
def quote (t : Text) : Text := '"' :: (t.flatMap escape ++ ['"'])

/-- `LimitedOutput` over what has been written. -/
def limited (json : Text) : Except String Text :=
  if MAX_PLAINTEXT < (utf8 json).length then .error "backup_too_large" else .ok json

def encodeFiles : List Entry → Nat → Text → Except String Text
  | [], _, json => .ok json
  | file :: rest, count, json =>
    if !isAttachmentName file.name then encodeFiles rest count json
    else if !file.regular then .error "invalid_attachment_path"
    else if MAX_FILES < count + 1 then .error "too_many_backup_files"
    else
      match limited (json ++ (if count = 0 then [] else [',']) ++ quote file.name ++ [':', '"'] ++
          base64 file.content ++ ['"']) with
      | .error e => .error e
      | .ok json => encodeFiles rest (count + 1) json

/-- The JSON before the names of the files. -/
def opening (database vmk : Bytes) (hkdfSalt : Text) : Text :=
  "\x7b\"format\":1,\"vmk\":".toList ++ quote (base64 vmk) ++ ",\"hkdfSalt\":".toList ++
    quote hkdfSalt ++ ",\"database\":\"".toList ++ base64 database ++ filesKey

def encodeJson (database : Bytes) (attachments : Directory) (vmk : Bytes) (hkdfSalt : Text) :
    Except String Text := do
  let json ← limited (opening database vmk hkdfSalt)
  let json ← encodeFiles attachments.entries 0 json
  limited (json ++ closingBraces)

def encode (gzip : Bytes → Bytes) (database : Bytes) (attachments : Directory) (vmk : Bytes)
    (hkdfSalt : Text) : Except String Bytes := do
  let json ← encodeJson database attachments vmk hkdfSalt
  let compressed := gzip (utf8 json)
  if MAX_COMPRESSED < compressed.length then .error "backup_too_large" else .ok compressed

/-! ## The parser -/

/-- What is done to the files of the stage, by their paths in it. -/
inductive Write where
  | create (path : Text)
  | append (path : Text) (bytes : Bytes)
  deriving DecidableEq, Repr

def Write.path : Write → Text
  | .create path => path
  | .append path _ => path

/-- What a file holds after the writes, the last of which comes first. -/
def content : List Write → Text → Option Bytes
  | [], _ => none
  | .create q :: ws, path => if q = path then some [] else content ws path
  | .append q bytes :: ws, path =>
    if q = path then (content ws path).map (· ++ bytes) else content ws path

/-- `next` is the byte that was looked at, if there is one and if it is one; `held` notes the
most that one buffer has had in it; `log` has the writes. -/
structure Parser where
  input : Bytes
  broken : Bool
  next : Option (Option UInt8)
  total : Nat
  held : Nat
  log : List Write
  ended : next = some none → input = []
  deriving DecidableEq, Repr

/-- The bytes that are not taken yet. -/
def Parser.unread (p : Parser) : Bytes :=
  match p.next with
  | some (some value) => value :: p.input
  | _ => p.input

abbrev Reading (α : Type) := EStateM String Parser α

/-- Not an error of the source: a loop that does not come to an end would give it. -/
def outOfRounds : String := "out of rounds"

def peek : Reading (Option UInt8) := fun p =>
  match p.next with
  | some value => .ok value p
  | none =>
    match hinput : p.input with
    | [] =>
      if p.broken then .error "Unexpected end of ZLIB input stream" p
      else .ok none { p with next := some none, ended := fun _ => hinput }
    | value :: input =>
      let read : Parser :=
        { p with input, next := some (some value), total := p.total + 1, ended := nofun }
      if MAX_PLAINTEXT < read.total then .error "snapshot_too_large" read
      else .ok (some value) read

/-- `next=-2` -/
def dropNext : Reading Unit := fun p => .ok () { p with next := none, ended := nofun }

def take : Reading (Option UInt8) := do
  let value ← peek
  dropNext
  return value

/-- Notes that a buffer has come to have `n` characters, digits or names. -/
def hold (n : Nat) : Reading Unit := fun p => .ok () { p with held := max p.held n }

def write (w : Write) : Reading Unit := fun p => .ok () { p with log := w :: p.log }

/-- A loop of the parser: each round takes a byte. -/
def repeatReading {β γ : Type} (body : β → Reading (β ⊕ γ)) (b : β) : Reading γ :=
  repeatLoop outOfRounds (fun p => p.unread.length) body b

def isSpace (b : UInt8) : Bool := [32, 13, 10, 9].contains b

def peekNonSpace : Reading (Option UInt8) :=
  repeatReading (fun _ => do
    let value ← peek
    if value.any isSpace then do
      let _ ← take
      return .inl ()
    else return .inr value) ()

def expect (expected : UInt8) : Reading Unit := do
  let value ← peekNonSpace
  if value ≠ some expected then throw "invalid_snapshot_json"
  else do
    let _ ← take
    return ()

/-- There is a comma in front of all but the first. -/
def comma (first : Bool) : Reading Unit := if first then return () else expect 44

/-- `Character.digit(c, 16)` of a byte. -/
def hexDigit (b : UInt8) : Option Nat :=
  if 48 ≤ b.toNat ∧ b.toNat ≤ 57 then some (b.toNat - 48)
  else if 97 ≤ b.toNat ∧ b.toNat ≤ 102 then some (b.toNat - 87)
  else if 65 ≤ b.toNat ∧ b.toNat ≤ 70 then some (b.toNat - 55)
  else none

/-- The digits left of a `\u` escape; the shift and the `|` are a product and a sum here. -/
def escapedCode : Nat → Nat → Reading Nat
  | 0, code => return code
  | n + 1, code => do
    let value ← take
    match value.bind hexDigit with
    | none => throw "invalid_snapshot_escape"
    | some digit => escapedCode n (code * 16 + digit)

def escapeLetter (b : UInt8) : Option Nat :=
  if b = 34 then some 34
  else if b = 92 then some 92
  else if b = 47 then some 47
  else if b = 98 then some 8
  else if b = 102 then some 12
  else if b = 110 then some 10
  else if b = 114 then some 13
  else if b = 116 then some 9
  else none

/-- One character of a string, as its code. -/
def character : Reading Nat := do
  let value ← take
  match value with
  | none => throw "invalid_snapshot_string"
  | some b =>
    if b.toNat < 32 then throw "invalid_snapshot_string"
    else if b = 92 then do
      let escaped ← take
      match escaped with
      | none => throw "invalid_snapshot_escape"
      | some e =>
        if e = 117 then escapedCode 4 0
        else
          match escapeLetter e with
          | none => throw "invalid_snapshot_escape"
          | some code => return code
    else return b.toNat

def stringRound (limit : Nat) (value : Text) : Reading (Text ⊕ Text) := do
  let b ← peek
  if b = some 34 then return .inr value
  else do
    let code ← character
    if 127 < code ∨ limit ≤ value.length then throw "snapshot_metadata_too_large"
    else do
      hold (value.length + 1)
      return .inl (value ++ [Char.ofNat code])

def string (limit : Nat) : Reading Text := do
  expect 34
  let value ← repeatReading (stringRound limit) []
  let _ ← take
  return value

/-- The number that a text of digits writes: its digits, and the power of ten they stand at. -/
structure Decimal where
  negative : Bool
  digits : Nat
  exponent : Int
  deriving DecidableEq, Repr

def isDigit (c : Char) : Bool := '0' ≤ c && c ≤ '9'

def decimalValue (digits : Text) : Nat := digits.foldl (fun n c => 10 * n + (c.toNat - 48)) 0

/-- `([eE][+-]?[0-9]+)?` -/
def exponentPart : Text → Option Int
  | [] => some 0
  | e :: t =>
    if e ≠ 'e' ∧ e ≠ 'E' then none
    else
      let digits := if t.head? = some '+' ∨ t.head? = some '-' then t.tail else t
      if digits = [] ∨ !digits.all isDigit then none
      else if t.head? = some '-' then some (-(decimalValue digits : Int))
      else some (decimalValue digits)

/-- `-?(0|[1-9][0-9]*)(\.[0-9]+)?([eE][+-]?[0-9]+)?` -/
def parseDecimal (t : Text) : Option Decimal := do
  let negative := t.head? == some '-'
  let t := if negative then t.tail else t
  let whole := t.takeWhile isDigit
  let rest := t.drop whole.length
  if whole = [] ∨ whole.head? = some '0' ∧ whole.length ≠ 1 then none
  else
    let fraction := if rest.head? = some '.' then rest.tail.takeWhile isDigit else []
    if rest.head? = some '.' ∧ fraction = [] then none
    else do
      let rest := if rest.head? = some '.' then rest.tail.drop fraction.length else rest
      let exponent ← exponentPart rest
      some ⟨negative, decimalValue (whole ++ fraction), exponent - fraction.length⟩

/-- `Double.parseDouble` gives 1.0: the nearest double is 1, of which the next ones are `2^-53`
and `2^-52` away, and halfway it is the even one. -/
def Decimal.isOne (d : Decimal) : Bool :=
  !d.negative &&
    if 0 ≤ d.exponent then d.digits * 10 ^ d.exponent.toNat == 1
    else
      decide ((2 ^ 54 - 1) * 10 ^ (-d.exponent).toNat ≤ 2 ^ 54 * d.digits ∧
        2 ^ 53 * d.digits ≤ (2 ^ 53 + 1) * 10 ^ (-d.exponent).toNat)

/-- The bytes of `",}] \r\n\t"`. -/
def endsNumber (b : UInt8) : Bool := [44, 125, 93, 32, 13, 10, 9].contains b

def numberRound (text : Text) : Reading (Text ⊕ Text) := do
  let value ← peek
  match value with
  | none => return .inr text
  | some b =>
    if endsNumber b then return .inr text
    else if 32 ≤ text.length then throw "invalid_snapshot_number"
    else do
      let _ ← take
      hold (text.length + 1)
      return .inl (text ++ [Char.ofNat b.toNat])

def number : Reading Decimal := do
  let _ ← peekNonSpace
  let text ← repeatReading numberRound []
  match parseDecimal text with
  | none => throw "invalid_snapshot_number"
  | some d => return d

def isBase64Code (code : Nat) : Bool :=
  (65 ≤ code && code ≤ 90) || (97 ≤ code && code ≤ 122) || (48 ≤ code && code ≤ 57) ||
    code == 43 || code == 47 || code == 61

/-- `output.write(java.util.Base64.getDecoder().decode(encoded))` -/
def writeDecoded (path encoded : Text) : Reading Unit :=
  match decodeBase64 encoded with
  | none => throw "Input byte array has wrong 4-byte ending unit"
  | some bytes => write (.append path bytes)

/-- The bytes that are kept until they are decoded. -/
def blockLength : Nat := 8192

/-- What is kept of a block, and whether there was padding. -/
def base64Round (path : Text) (block : Text × Bool) : Reading ((Text × Bool) ⊕ Text) := do
  let b ← peek
  if b = some 34 then return .inr block.1
  else do
    let code ← character
    if !isBase64Code code || (block.2 && code != 61) then throw "invalid_snapshot_base64"
    else do
      let padded := block.2 || code == 61
      let encoded := block.1 ++ [Char.ofNat code]
      hold encoded.length
      if encoded.length = blockLength then do
        if padded then do
          let b ← peek
          if b ≠ some 34 then throw "invalid_snapshot_base64"
          else do
            writeDecoded path encoded
            return .inl ([], padded)
        else do
          writeDecoded path encoded
          return .inl ([], padded)
      else return .inl (encoded, padded)

def parseBase64 (path : Text) : Reading Unit := do
  expect 34
  write (.create path)
  let encoded ← repeatReading (base64Round path) ([], false)
  let _ ← take
  if encoded.isEmpty then return ()
  else writeDecoded path encoded

/-! ## Decoding -/

def databasePath : Text := "data/chat.db".toList

def attachmentPath (name : Text) : Text := "attachments/".toList ++ name

structure Snapshot where
  vmk : Option Bytes
  salt : Option Text
  deriving DecidableEq, Repr

/-- A member of `files` after these names; before the first there is no comma. -/
def fileRound (names : List Text) : Reading (List Text ⊕ Unit) := do
  let b ← peekNonSpace
  if b = some 125 then return .inr ()
  else do
    comma names.isEmpty
    let name ← string 32
    hold (names.length + 1)
    if !isAttachmentName name || names.contains name || MAX_FILES < names.length + 1 then
      throw "invalid_snapshot_path"
    else do
      expect 58
      parseBase64 (attachmentPath name)
      return .inl (names ++ [name])

def parseFiles : Reading Unit := do
  expect 123
  let _ ← repeatReading fileRound []
  expect 125

def parseField (key : Text) (result : Snapshot) : Reading Snapshot :=
  if key = "format".toList then do
    let d ← number
    if d.isOne then return result else throw "invalid_snapshot_format"
  else if key = "vmk".toList then do
    let t ← string 44
    match decodeBase64 t with
    | none => throw "Illegal base64 character"
    | some vmk =>
      if vmk.length ≠ 32 then throw "invalid_snapshot_key"
      else return { result with vmk := some vmk }
  else if key = "hkdfSalt".toList then do
    let t ← string 24
    match decodeBase64 t with
    | none => throw "Illegal base64 character"
    | some salt =>
      if salt.length ≠ 16 then throw "invalid_snapshot_salt"
      else return { result with salt := some t }
  else if key = "database".toList then do
    parseBase64 databasePath
    return result
  else if key = "files".toList then do
    parseFiles
    return result
  else throw "unsupported_snapshot_field"

/-- A field after these keys and what they gave. -/
def fieldRound (read : List Text × Snapshot) :
    Reading ((List Text × Snapshot) ⊕ (List Text × Snapshot)) := do
  let b ← peekNonSpace
  if b = some 125 then return .inr read
  else do
    comma read.1.isEmpty
    let key ← string 32
    hold (read.1.length + 1)
    if read.1.contains key then throw "duplicate_snapshot_field"
    else do
      expect 58
      let result ← parseField key read.2
      return .inl (read.1 ++ [key], result)

def mandatory : List Text :=
  ["format".toList, "vmk".toList, "hkdfSalt".toList, "database".toList]

def parseSnapshot : Reading Snapshot := do
  expect 123
  let (fields, result) ← repeatReading fieldRound ([], ⟨none, none⟩)
  expect 125
  let b ← peekNonSpace
  if b ≠ none ∨ !mandatory.all fields.contains then throw "invalid_snapshot"
  else return result

/-- What an inflater makes of the compressed bytes: nothing at all if they have no header. -/
structure Inflated where
  bytes : Bytes
  broken : Bool
  deriving DecidableEq, Repr

def Inflated.parser (z : Inflated) : Parser := ⟨z.bytes, z.broken, none, 0, 0, [], nofun⟩

def emptyParser : Parser := (Inflated.mk [] true).parser

def decode (gunzip : Bytes → Option Inflated) (compressed : Bytes) :
    EStateM.Result String Parser Snapshot :=
  match gunzip compressed with
  | none => .error "Not in GZIP format" emptyParser
  | some z => parseSnapshot z.parser

end SnapshotCodec
