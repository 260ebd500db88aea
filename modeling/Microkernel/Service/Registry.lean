import Std.Data.TreeMap
import Microkernel.Object.Basic
import Microkernel.Service.Error

/-!
# Service names and who serves them
-/

namespace Microkernel

/-!
## Service names

A service is known by one to eight ASCII characters. On the wire a name is a long word that holds them in little-endian order,
filled up with zeros.
-/

open Wire (Bytes)

/-- The most characters of a name. -/
def maxNameLength : Nat := 8

/-- Whether a text can name a service. -/
def isServiceName (text : String) : Bool :=
  let chars := text.toList
  !chars.isEmpty && chars.length ≤ maxNameLength && chars.all fun c => 0 < c.toNat && c.toNat < 0x80

/-- A name that a service can have. -/
structure ServiceName where
  text : String
  valid : isServiceName text = true
  deriving DecidableEq, Repr

namespace ServiceName

/-- The name with a text. -/
def ofString (text : String) : Except RegistryError ServiceName :=
  if h : isServiceName text = true then .ok ⟨text, h⟩ else .error .invalidName

/-- The text of a row of ASCII characters. -/
def textOfBytes (bytes : Bytes) : String := String.ofList (bytes.map fun b => Char.ofNat b.toNat)

/-- The name that a long word stands for; behind its first zero byte all bytes are zero. -/
def ofWord (word : Nat) : Except RegistryError ServiceName :=
  let bytes := Wire.word64 word
  let name := bytes.takeWhile (· ≠ 0)
  if (bytes.drop name.length).any (· ≠ 0) then .error .invalidName else ofString (textOfBytes name)

/-- The long word that stands for a name. -/
def toWord (n : ServiceName) : Nat := Wire.ofLittleEndian (n.text.toList.map fun c => UInt8.ofNat c.toNat)

end ServiceName

/-!
## The service registry

Which port serves which name. A name that is taken stays with the port that has it.
-/

/-- The services of one kernel, by name. -/
structure Registry where
  kernel : RecordId
  /-- The client ends of the ports that serve the names. -/
  services : Std.TreeMap String RecordId := {}
  /-- The event that is signaled once the service manager takes calls. -/
  ready : RecordId
  deriving Inhabited

namespace Registry

/-- Gives a free name to a port. -/
def bind (r : Registry) (name : ServiceName) (port : RecordId) : Except RegistryError Registry :=
  if r.services.contains name.text then .error (.alreadyRegistered name.text)
  else .ok { r with services := r.services.insert name.text port }

/-- Takes a name away from its port. -/
def unbind (r : Registry) (name : ServiceName) : Except RegistryError Registry :=
  if r.services.contains name.text then .ok { r with services := r.services.erase name.text }
  else .error (.notRegistered name.text)

/-- The port that serves a name. -/
def get? (r : Registry) (name : ServiceName) : Option RecordId := r.services[name.text]?

/-- The names, in ascending order. -/
def names (r : Registry) : List String := r.services.keys

end Registry

end Microkernel
