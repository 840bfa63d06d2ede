import OnshapeExport.Lib.ByteStream
import OnshapeExport.Lib.Checks
import OnshapeExport.ParseJson

/-!
# ChunkedBody

How `onshape_api.rs` reads a chunked body. A reader is buffered over fragments; a loop has as many
turns as there are bytes left, since each of them reads something. An operation that the language
checks, on lengths or on a slice, gives `panicked` where its check fails.

* `readLine`, `readExactBody`, `requireCompletedClose` — what is read.
* `validChunkExtensions` — what may follow the size of a chunk.
* `collectChunked` — the chunks, the trailers and the end of the connection.
-/

namespace OnshapeExport
namespace OnshapeApi

open ByteStream CacheKey Checks

def transport (code : String) : ApiFailure := .new .transportFailure code

abbrev ResponseReader := BufReader UInt8

inductive Stop where
  | failed (e : ApiFailure)
  | panicked
  | unfinished
deriving DecidableEq

def maxHeaderBytes : Nat := 65536
def usizeMax : Nat := 2 ^ 64 - 1

/-! ## What the language checks -/

def checkedSub (a b : Nat) : Except Stop Nat := if b ≤ a then .ok (a - b) else .error .panicked

def sliceTo (bytes : List UInt8) (n : Nat) : Except Stop (List UInt8) :=
  if n ≤ bytes.length then .ok (bytes.take n) else .error .panicked

def sliceFrom (bytes : List UInt8) (n : Nat) : Except Stop (List UInt8) :=
  if n ≤ bytes.length then .ok (bytes.drop n) else .error .panicked

def index (bytes : List UInt8) (n : Nat) : Except Stop UInt8 :=
  match bytes[n]? with
  | some byte => .ok byte
  | none => .error .panicked

def saturatingAdd (a b : Nat) : Nat := min (a + b) usizeMax

/-- `none` on overflow. -/
def checkedMul (a b : Nat) : Option Nat := if a * b ≤ usizeMax then some (a * b) else none
def checkedAdd (a b : Nat) : Option Nat := if a + b ≤ usizeMax then some (a + b) else none

/-! ## Reading -/

def lineLoop (limit : Nat) : Nat → List UInt8 → ResponseReader →
    Except Stop (List UInt8 × ResponseReader)
  | 0, _, _ => .error .unfinished
  | turns + 1, line, reader =>
    match reader.fillBuf with
    | (.error _, _) => .error (.failed (transport "response_read_failed"))
    | (.ok available, reader) => do
      ensure (available ≠ []) (.failed (transport "premature_eof"))
      let count := ((available.findIdx? (· = 10)).map (· + 1)).getD available.length
      let room ← checkedSub limit line.length
      ensure (count ≤ room) (.failed (operational "http_header_byte_limit"))
      let last ← checkedSub count 1
      let byte ← index available last
      let bytes ← sliceTo available count
      let line := line ++ bytes
      let reader := reader.consume count
      if byte = 10 then do
        ensure (line.drop (line.length - 2) = [13, 10])
          (.failed (transport "invalid_http_line_framing"))
        return (line, reader)
      else lineLoop limit turns line reader

def readLine (limit : Nat) (reader : ResponseReader) :
    Except Stop (List UInt8 × ResponseReader) :=
  lineLoop limit (reader.stream.content.length + 1) [] reader

def requireCompletedClose (reader : ResponseReader) : Except Stop Unit :=
  match (reader.read 1).1 with
  | .ok [] => .ok ()
  | .ok (_ :: _) => .error (.failed (operational "response_length_mismatch"))
  | .error .unexpectedEof => .ok ()
  | .error .other => .error (.failed (transport "response_read_failed"))

def bodyLoop (limit : Nat) : Nat → Nat → List UInt8 → ResponseReader →
    Except Stop (List UInt8 × ResponseReader)
  | turns, remaining, bytes, reader =>
    if remaining = 0 then .ok (bytes, reader)
    else
      match turns with
      | 0 => .error .unfinished
      | turns + 1 => do
        let room ← checkedSub limit bytes.length
        let maximum := min (min remaining 8192) (saturatingAdd room 1)
        match reader.read maximum with
        | (.error _, _) => throw (.failed (transport "response_read_failed"))
        | (.ok read, reader) =>
          ensure (read ≠ []) (.failed (transport "premature_eof"))
          let room ← checkedSub limit bytes.length
          ensure (read.length ≤ room) (.failed (operational "response_byte_limit"))
          let remaining ← checkedSub remaining read.length
          bodyLoop limit turns remaining (bytes ++ read) reader

def readExactBody (length : Nat) (bytes : List UInt8) (limit : Nat) (reader : ResponseReader) :
    Except Stop (List UInt8 × ResponseReader) :=
  bodyLoop limit (reader.stream.content.length + 1) length bytes reader

/-! ## Chunk extensions -/

def isOws (byte : UInt8) : Bool := byte = 32 || byte = 9

def isAsciiAlphanumeric (byte : UInt8) : Bool :=
  (48 ≤ byte && byte ≤ 57) || (65 ≤ byte && byte ≤ 90) || (97 ≤ byte && byte ≤ 122)

/-- ASCII letters and digits, and the bytes of "!#$%&'*+-.^_`|~". -/
def isTokenByte (byte : UInt8) : Bool :=
  isAsciiAlphanumeric byte ||
    [33, 35, 36, 37, 38, 39, 42, 43, 45, 46, 94, 95, 96, 124, 126].contains byte

def trimOws (bytes : List UInt8) : List UInt8 := bytes.dropWhile isOws

def consume (bytes : List UInt8) (expected : UInt8) : Option (List UInt8) :=
  match bytes with
  | [] => none
  | byte :: rest => if byte = expected then some rest else none

/-- What follows a token. -/
def takeToken (bytes : List UInt8) : Option (List UInt8) :=
  if bytes.takeWhile isTokenByte = [] then none else some (bytes.dropWhile isTokenByte)

/-- A byte that may follow a backslash, and with the exception of the quote and of the backslash
one that may stand by itself. -/
def isQuotable (byte : UInt8) : Bool :=
  byte = 9 || (0x20 ≤ byte && byte ≤ 0x7e) || 0x80 ≤ byte

/-- What follows the closing quote; a byte may be escaped by the one before. -/
def takeQuoted : Bool → List UInt8 → Option (List UInt8)
  | _, [] => none
  | true, escaped :: rest => if isQuotable escaped then takeQuoted false rest else none
  | false, byte :: rest =>
    if byte = 34 then some rest
    else if byte = 92 then takeQuoted true rest
    else if isQuotable byte then takeQuoted false rest
    else none

/-- What follows an extension, after its semicolon. -/
def takeExtension (bytes : List UInt8) : Option (List UInt8) := do
  let bytes ← takeToken (trimOws bytes)
  match consume (trimOws bytes) 61 with
  | none => return trimOws bytes
  | some bytes =>
    match consume (trimOws bytes) 34 with
    | some bytes => takeQuoted false bytes
    | none => takeToken (trimOws bytes)

def extensionLoop : Nat → List UInt8 → Bool
  | 0, _ => false
  | turns + 1, bytes =>
    match trimOws bytes with
    | [] => true
    | bytes =>
      match (consume bytes 59).bind takeExtension with
      | none => false
      | some bytes => extensionLoop turns bytes

def validChunkExtensions (bytes : List UInt8) : Bool := extensionLoop (bytes.length + 1) bytes

/-! ## Sizes -/

def isAsciiHexdigit (byte : UInt8) : Bool :=
  (48 ≤ byte && byte ≤ 57) || (97 ≤ byte && byte ≤ 102) || (65 ≤ byte && byte ≤ 70)

def hexDigit (byte : UInt8) : Except Stop Nat :=
  if 48 ≤ byte ∧ byte ≤ 57 then checkedSub byte.toNat 48
  else if 97 ≤ byte ∧ byte ≤ 102 then do return (← checkedSub byte.toNat 97) + 10
  else do return (← checkedSub byte.toNat 65) + 10

def chunkSize : Nat → List UInt8 → Except Stop Nat
  | length, [] => .ok length
  | length, byte :: size => do
    let digit ← hexDigit byte
    match (checkedMul length 16).bind (checkedAdd · digit) with
    | none => throw (.failed (transport "invalid_chunk_framing"))
    | some length => chunkSize length size

/-! ## The body -/

/-- The packages that read headers: of a head its length if it is complete and its raw headers, and
of a raw header its name in lower case and its value. -/
structure HeaderParser where
  parse (head : List UInt8) : Option (Option Nat × List (List UInt8 × List UInt8))
  name (raw : List UInt8) : Option String
  value (raw : List UInt8) : Option (List UInt8)

section Chunks

variable (http : HeaderParser)

def parseHeaderBlock (head : List UInt8) : Except ApiFailure (List (String × List UInt8)) :=
  match http.parse head with
  | some (some n, raws) =>
    if n = head.length then
      match raws.mapM fun (name, value) => do return (← http.name name, ← http.value value) with
      | some headers => .ok headers
      | none => .error (operational "invalid_http_headers")
    else .error (operational "invalid_http_headers")
  | _ => .error (operational "invalid_http_headers")

/-- Headers that change how a response is read. -/
def significant : List String :=
  ["content-length", "transfer-encoding", "content-type", "content-encoding"]

def trailerStart : List UInt8 := "HTTP/1.1 200 OK\r\n".toUTF8.data.toList

def trailerLoop : Nat → List UInt8 → ResponseReader → Except Stop (List UInt8 × ResponseReader)
  | 0, _, _ => .error .unfinished
  | turns + 1, trailers, reader => do
    let room ← checkedSub maxHeaderBytes trailers.length
    let (line, reader) ← readLine room reader
    if line = [13, 10] then return (trailers ++ line, reader)
    else trailerLoop turns (trailers ++ line) reader

/-- After the last chunk: its trailers, and the end of the connection. -/
def finishChunks (reader : ResponseReader) : Except Stop Unit := do
  let (trailers, reader) ← trailerLoop (reader.stream.content.length + 1) trailerStart reader
  let headers ← (parseHeaderBlock http trailers).mapError fun _ =>
    .failed (transport "invalid_chunk_trailers")
  ensure (∀ name ∈ significant, name ∉ headers.map Prod.fst)
    (.failed (operational "invalid_response_trailers"))
  requireCompletedClose reader

/-- The size of the next chunk. -/
def readSize (reader : ResponseReader) : Except Stop (Nat × ResponseReader) := do
  let (line, reader) ← readLine maxHeaderBytes reader
  let cut ← checkedSub line.length 2
  let line ← sliceTo line cut
  let sizeLength := (line.takeWhile isAsciiHexdigit).length
  let size ← sliceTo line sizeLength
  let extensions ← sliceFrom line sizeLength
  ensure (size ≠ [] ∧ validChunkExtensions extensions = true)
    (.failed (transport "invalid_chunk_framing"))
  let length ← chunkSize 0 size
  return (length, reader)

def chunkLoop (limit : Nat) : Nat → List UInt8 → ResponseReader → Except Stop (List UInt8)
  | 0, _, _ => .error .unfinished
  | turns + 1, bytes, reader => do
    let (length, reader) ← readSize reader
    if length = 0 then do
      finishChunks http reader
      return bytes
    else do
      let (bytes, reader) ← readExactBody length bytes limit reader
      let (ending, reader) ← readExactBody 2 [] 2 reader
      ensure (ending = [13, 10]) (.failed (transport "invalid_chunk_framing"))
      chunkLoop limit turns bytes reader

def collectChunked (limit : Nat) (reader : ResponseReader) : Except Stop (List UInt8) :=
  chunkLoop http limit (reader.stream.content.length + 1) [] reader

end Chunks

end OnshapeApi
end OnshapeExport
