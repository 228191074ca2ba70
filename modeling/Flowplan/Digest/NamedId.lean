import Flowplan.Digest.Sha1
import Flowplan.Text.Basic

namespace Flowplan.Digest

/-- The namespace of identifiers that are made from URLs. -/
def urlNamespace : List UInt8 :=
  [0x6b, 0xa7, 0xb8, 0x11, 0x9d, 0xad, 0x11, 0xd1, 0x80, 0xb4, 0x00, 0xc0, 0x4f, 0xd4, 0x30, 0xc8]

/-- The version and variant of an identifier made by digest stand in two of its bytes. -/
def marked (bytes : List UInt8) : List UInt8 :=
  bytes.mapIdx fun i b =>
    if i = 6 then (b &&& 0x0F) ||| 0x50 else if i = 8 then (b &&& 0x3F) ||| 0x80 else b

/-- The hexadecimal digits of the identifier that a name has in a namespace. -/
def namedId (space : List UInt8) (name : String) : String :=
  let bytes := marked ((sha1 (space ++ name.toUTF8.toList)).take 16)
  String.join (bytes.map fun b => Text.hexDigits 2 b.toNat)

end Flowplan.Digest
