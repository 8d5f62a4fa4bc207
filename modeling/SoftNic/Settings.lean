import SoftNic.Document.Reading
import SoftNic.MacAddress
import SoftNic.Severity

/-! # Interface settings

The settings of one interface: its name, its hardware address, the sizes of
its two rings and the weight of a poll pass.  Settings are read from the table
`vnic` of a configuration tree, entry by entry in the order of the keys; what
is absent keeps its standard value, and an entry of an unknown name is skipped
with a notice.  The first bad entry ends the reading.  Only after all entries
were read are the limits checked.
-/
namespace SoftNic

/-- The name of an interface: at most sixteen bytes in UTF-8. -/
structure InterfaceName where
  text : String
  utf8ByteSize_le : text.utf8ByteSize ≤ 16 := by decide
  deriving DecidableEq, Repr

namespace InterfaceName

/-- The name with the given text, if that is short enough. -/
def ofText? (text : String) : Option InterfaceName :=
  if h : text.utf8ByteSize ≤ 16 then some ⟨text, h⟩ else none

instance : Inhabited InterfaceName := ⟨⟨"vnic0", by decide⟩⟩

end InterfaceName

/-- The settings of one interface. -/
structure Settings where
  name : InterfaceName
  address : MacAddress
  /-- Slots of the ring for frames to be sent, the free one included. -/
  txRing : Nat
  /-- Slots of the ring for received frames, the free one included. -/
  rxRing : Nat
  /-- The most frames that one poll pass handles. -/
  weight : Nat
  deriving DecidableEq, Repr

namespace Settings

/-- The settings of an interface about which nothing is said. -/
def standard : Settings where
  name := ⟨"vnic0", by decide⟩
  address := ⟨[0x00, 0x56, 0x4E, 0x49, 0x43, 0x53], rfl⟩
  txRing := 1024
  rxRing := 1024
  weight := 64

instance : Inhabited Settings := ⟨standard⟩

/-- What can be set. -/
inductive Key
  | name
  | address
  | txRing
  | rxRing
  | weight
  deriving DecidableEq, Repr

namespace Key

/-- The name of a setting in a document. -/
def text : Key → String
  | name => "name"
  | address => "mac"
  | txRing => "tx_ring_size"
  | rxRing => "rx_ring_size"
  | weight => "napi_weight"

/-- The setting of that name. -/
def ofText? (s : String) : Option Key :=
  [name, address, txRing, rxRing, weight].find? fun k => k.text == s

end Key

/-- Something worth mentioning that is no error. -/
inductive Notice
  | noTable
  | unknownKey (key : String)
  deriving DecidableEq, Repr

namespace Notice

/-- How important a notice is. -/
def severity : Notice → Severity
  | noTable => .debug
  | unknownKey _ => .warn

/-- The wording of a notice. -/
def message : Notice → String
  | noTable => "no [vnic] table, using defaults"
  | unknownKey key => "ignoring unknown key vnic." ++ key

end Notice

/-- The text that an entry holds. -/
def textOf (key : Key) : Tree → Except ConfigError String
  | .scalar (.text s) => .ok s
  | _ => .error (.invalidValue (.notText key.text))

/-- The size that an entry holds: an integer that is not negative. -/
def sizeOf (key : Key) : Tree → Except ConfigError Nat
  | .scalar (.integer (.ofNat n)) => .ok n
  | _ => .error (.invalidValue (.notSize key.text))

/-- The interface name that an entry holds. -/
def nameOf (key : Key) (value : Tree) : Except ConfigError InterfaceName :=
  match textOf key value with
  | .error e => .error e
  | .ok text =>
    match InterfaceName.ofText? text with
    | some name => .ok name
    | none => .error (.invalidValue (.tooLong key.text text))

/-- The hardware address that an entry holds. -/
def addressOf (key : Key) (value : Tree) : Except ConfigError MacAddress :=
  match textOf key value with
  | .error e => .error e
  | .ok text => MacAddress.parse text

/-- The settings after one entry was read. -/
def update (s : Settings) (key : Key) (value : Tree) : Except ConfigError Settings :=
  match key with
  | .name => (nameOf key value).map fun x => { s with name := x }
  | .address => (addressOf key value).map fun x => { s with address := x }
  | .txRing => (sizeOf key value).map fun x => { s with txRing := x }
  | .rxRing => (sizeOf key value).map fun x => { s with rxRing := x }
  | .weight => (sizeOf key value).map fun x => { s with weight := x }

/-- Read the entries one after the other. -/
def absorb : Settings → Tree.Entries → List Notice × Except ConfigError Settings
  | s, [] => ([], .ok s)
  | s, (name, value) :: rest =>
    match Key.ofText? name with
    | none =>
      let (notices, result) := absorb s rest
      (.unknownKey name :: notices, result)
    | some key =>
      match s.update key value with
      | .error e => ([], .error e)
      | .ok s => absorb s rest

/-- Check the limits.  The first that is broken, in this order, is reported:
size of the transmit ring, size of the receive ring, weight, name. -/
def validate (s : Settings) : Except ConfigError Unit :=
  if s.txRing < 2 then .error (.invalidValue (.belowMinimum Key.txRing.text 2))
  else if s.rxRing < 2 then .error (.invalidValue (.belowMinimum Key.rxRing.text 2))
  else if s.weight = 0 then .error (.invalidValue (.belowMinimum Key.weight.text 1))
  else if s.name.text = "" then .error (.invalidValue (.empty Key.name.text))
  else .ok ()

/-- The settings if they keep the limits. -/
def checked (s : Settings) : Except ConfigError Settings :=
  (validate s).map fun _ => s

theorem checked_eq_ok_iff {s t : Settings} : s.checked = .ok t ↔ s.validate = .ok () ∧ t = s := by
  unfold checked
  cases hv : s.validate with
  | error e => exact ⟨nofun, nofun⟩
  | ok u => exact ⟨fun h => ⟨rfl, (Except.ok.inj h).symm⟩, fun h => congrArg Except.ok h.2.symm⟩

/-- Read settings from a configuration tree. -/
def ofTree (root : Tree) : List Notice × Except ConfigError Settings :=
  match root.child? "vnic" with
  | none => ([.noTable], .ok standard)
  | some (.scalar _) => ([], .error (.invalidTablePath ["vnic"]))
  | some (.table entries) =>
    let (notices, result) := absorb standard entries
    (notices, result.bind checked)

/-- Read settings from a document. -/
def ofText (text : String) : List Notice × Except ConfigFailure Settings :=
  match Document.read text with
  | .error e => ([], .error e)
  | .ok root =>
    let (notices, result) := ofTree root
    (notices, Document.refuse result)

end Settings
end SoftNic
