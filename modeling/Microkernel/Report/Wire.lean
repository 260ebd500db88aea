import Microkernel.Json.Basic
import Microkernel.Memory.AddressSpace
import Microkernel.Memory.Region
import Microkernel.Text.Hex
import Microkernel.Wire.Request
import Microkernel.Wire.Response

/-!
# Reports on memory and messages
-/

namespace Microkernel

/-!
## Reports on memory

Regions, page lists and mappings as JSON for an operator to look at.
-/

open Json (nat record)

/-- The runs of a page list, each as its address and its pages. -/
def PageList.report (l : PageList) : Json := Json.list (fun r => .array [nat r.address, nat r.pages]) l.runs

def Region.report (r : Region) : Json :=
  record [("kind", .string r.kind.name), ("address", nat r.address), ("size", nat r.size), ("free", nat r.freePages)]

def Mapping.report (m : Mapping) : Json :=
  record [("address", nat m.address), ("size", nat m.size), ("end", nat m.limit), ("permission", .string m.permission.debug),
    ("state", .string m.state.name), ("object", Json.opt nat m.object), ("pages", m.pages.report)]

/-- Pieces of physical memory, each as its address and its length. -/
def piecesReport (pieces : List (Nat × Nat)) : Json := Json.list (fun (a, n) => .array [nat a, nat n]) pieces

/-!
## Reports on messages

Messages, requests and responses as JSON for an operator to look at.
-/

/-- Bytes as a text of hexadecimal digits. -/
def bytesReport (bytes : Wire.Bytes) : Json := .string (Text.bytesHex bytes)

namespace Wire

/-- A row of numbers. -/
def numbersReport (numbers : List Nat) : Json := Json.list nat numbers

def StaticDescriptor.report (d : StaticDescriptor) : Json := numbersReport [d.index.toNat, d.address.toNat, d.size.toNat]

def BufferDescriptor.report (d : BufferDescriptor) : Json := numbersReport [d.address.toNat, d.size.toNat, d.mode.code]

def ReceiveEntry.report (e : ReceiveEntry) : Json := numbersReport [e.address.toNat, e.size.toNat]

/-- Handles as a row of numbers. -/
def handlesReport (handles : List UInt32) : Json := numbersReport (handles.map UInt32.toNat)

def Message.report (m : Message) : Json :=
  record [("type", nat m.messageType.toNat), ("pid", Json.opt (nat ∘ UInt64.toNat) m.pid), ("copy", handlesReport m.copyHandles),
    ("move", handlesReport m.moveHandles), ("statics", Json.list StaticDescriptor.report m.sendStatics),
    ("send", Json.list BufferDescriptor.report m.sendBuffers), ("recv", Json.list BufferDescriptor.report m.receiveBuffers),
    ("exch", Json.list BufferDescriptor.report m.exchangeBuffers),
    ("recv_list", Json.list ReceiveEntry.report m.receiveList), ("recv_list_offset", nat m.receiveListOffset.toNat),
    ("data", bytesReport m.data), ("data_offset", nat m.dataOffset), ("computed_offset", nat m.computeDataOffset)]

def Request.report (r : Request) : Json :=
  record [("command_type", .string r.commandType.name), ("command_id", nat r.commandId.toNat),
    ("magic", nat r.header.magic.toNat), ("version", nat r.header.version.toNat), ("token", nat r.header.token.toNat),
    ("payload", bytesReport r.payload), ("message", r.message.report)]

/-- The fields of a report on a response. -/
def Response.reportFields (r : Response) : List (String × Json) :=
  [("result", nat r.result.raw.toNat), ("payload", bytesReport r.payload), ("copy", handlesReport r.copyHandles),
    ("move", handlesReport r.moveHandles), ("statics", Json.list StaticDescriptor.report r.sendStatics)]

def Response.report (r : Response) : Json := record r.reportFields

end Wire

end Microkernel
