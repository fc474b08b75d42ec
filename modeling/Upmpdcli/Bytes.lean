import Mathlib.Data.List.TakeWhile

set_option autoImplicit false

namespace Upmpdcli

abbrev Bytes := List UInt8

def byte (c : Char) : UInt8 := c.toNat.toUInt8

def bytes (text : String) : Bytes := text.toList.map byte

/-- A C string ends at its first zero byte. -/
def cString (bytes : Bytes) : Bytes := bytes.takeWhile (· ≠ 0)

end Upmpdcli
