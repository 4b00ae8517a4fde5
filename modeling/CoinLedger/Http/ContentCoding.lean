import CoinLedger.Http.Message
import CoinLedger.Text.Blank
/-!
# Content codings

A request may say that its body is encoded. What the body stands for is then what it decodes to,
and a body that cannot be decoded stands for nothing. A coding that nobody knows, `identity`, and a
header that is no text are the same as no coding: the body is taken as it is.

How the codings compress is not fixed here: whoever reads a body brings a decoder along. One that
decodes without decompressing is at hand, for streams whose blocks are stored as they are.

## Main definitions

* `ContentCoding.ofRequest?` — the coding that a request names.
* `Request.content?` — the bytes that its body stands for, given a decoder.
* `decodeStored` — the decoder of stored streams.
-/

namespace CoinLedger.Http

/-- A coding of bodies. -/
inductive ContentCoding where
  | brotli
  | deflate
  | gzip
  | zstd
  deriving DecidableEq, Repr

namespace ContentCoding

/-- The codings and their names. -/
def names : List (String × ContentCoding) :=
  [("br", brotli), ("deflate", deflate), ("gzip", gzip), ("zstd", zstd)]

/-- The coding with a name, blanks at the ends aside and in any case of the letters. -/
def ofText? (text : List Char) : Option ContentCoding :=
  (names.find? fun entry => sameName entry.1 (String.ofList (Text.trim text))).map Prod.snd

/-- The coding that a request names, if it names a known one. -/
def ofRequest? (r : Request) : Option ContentCoding :=
  (r.headerText? "content-encoding").bind ofText?

end ContentCoding

/-- What decodes bodies. A body that is corrupt has no result. -/
abbrev ContentDecoder := ContentCoding → List UInt8 → Option (List UInt8)

/-- The bytes that the body of a request stands for. -/
def Request.content? (decode : ContentDecoder) (r : Request) : Option (List UInt8) :=
  match ContentCoding.ofRequest? r with
  | none => some r.body
  | some coding => decode coding r.body

/-! ## Stored streams -/

namespace StoredStream

/-- The number with the given bytes, the most significant one first. -/
def bigEndian (bytes : List UInt8) : Nat := bytes.foldl (fun n b => 256 * n + b.toNat) 0

/-- The checksum Adler-32: two sums modulo the largest prime below `2 ^ 16`. -/
def checksum (bytes : List UInt8) : Nat :=
  let sums := bytes.foldl
    (fun (a, b) byte => ((a + byte.toNat) % 65521, (b + a + byte.toNat) % 65521)) (1, 0)
  65536 * sums.2 + sums.1

/-- Whether two bytes begin a stream: they announce deflated blocks, a window that is not too
large, and no dictionary, and are divisible by 31. -/
def isHeader (method flags : UInt8) : Bool :=
  method.toNat % 16 = 8 && method.toNat / 16 ≤ 7 && flags.toNat / 32 % 2 = 0 &&
    bigEndian [method, flags] % 31 = 0

/-- The bytes of stored blocks up to the last block, and what follows them. A block has its mark,
its length with the least significant byte first, the complement of the length, and its bytes. The
first argument bounds the number of blocks. -/
def blocks? : Nat → List UInt8 → Option (List UInt8 × List UInt8)
  | fuel + 1, mark :: l₀ :: l₁ :: n₀ :: n₁ :: rest =>
    let length := bigEndian [l₁, l₀]
    if mark.toNat / 2 % 4 = 0 ∧ n₀ = ~~~l₀ ∧ n₁ = ~~~l₁ ∧ length ≤ rest.length then
      if mark.toNat % 2 = 1 then some (rest.take length, rest.drop length)
      else do
        let (bytes, after) ← blocks? fuel (rest.drop length)
        some (rest.take length ++ bytes, after)
    else none
  | _, _ => none

/-- The bytes of a stream: a header, stored blocks, and the checksum of their bytes. -/
def read? : List UInt8 → Option (List UInt8)
  | method :: flags :: rest => do
    let (bytes, after) ← blocks? rest.length rest
    if isHeader method flags ∧ after.length = 4 ∧ bigEndian after = checksum bytes then some bytes
    else none
  | _ => none

end StoredStream

/-- Decodes streams of stored blocks. -/
def decodeStored : ContentDecoder
  | .deflate, body => StoredStream.read? body
  | _, _ => none

/-- Two blocks, of which the second one is the last. -/
example : decodeStored .deflate
    [0x78, 0x01, 0, 2, 0, 0xFD, 0xFF, 0x68, 0x69, 1, 1, 0, 0xFE, 0xFF, 0x21, 0x02, 0x2E, 0x00,
      0xF3] = some [0x68, 0x69, 0x21] := by
  decide

end CoinLedger.Http
