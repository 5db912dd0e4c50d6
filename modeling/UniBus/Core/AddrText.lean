import Mathlib.Data.List.Basic
import UniBus.Core.Addr
import UniBus.Foundations.Hex

/-!
# Addresses as text

An address is written `0x{pod}:{node}:{dev}:{off}:{res}`, every segment in
hexadecimal. The parser takes any five segments that fit their fields and names
the first one that does not.
-/
namespace UniBus
namespace UbAddr

def segment (width n : ℕ) : String := String.ofList (Hex.hex width n)

def toText (a : UbAddr) : String :=
  "0x" ++ segment 4 a.podId.toNat ++ ":" ++ segment 4 a.nodeId.toNat ++ ":" ++
    segment 4 a.deviceId.toNat ++ ":" ++ segment 16 a.offset.toNat ++ ":" ++
    segment 4 a.reserved.toNat

def parseSegment (field : String) (bound : ℕ) (part : List Char) : Except UbError ℕ :=
  match Hex.fromStrRadix bound part with
  | .ok v => .ok v
  | .error e =>
    .error (.internal
      ("invalid " ++ field ++ " '" ++ String.ofList part ++ "': " ++ e.display))

/-- The five segments between the colons. -/
def fromSegments (s : List Char) : Except UbError UbAddr :=
  match s.splitOn ':' with
  | [pod, node, device, off, res] => do
    let podId ← parseSegment "pod_id" (2 ^ 16) pod
    let nodeId ← parseSegment "node_id" (2 ^ 16) node
    let deviceId ← parseSegment "device_id" (2 ^ 16) device
    let offset ← parseSegment "offset" (2 ^ 64) off
    let reserved ← parseSegment "reserved" (2 ^ 16) res
    return new (.ofNat podId) (.ofNat nodeId) (.ofNat deviceId) (.ofNat offset) (.ofNat reserved)
  | _ =>
    .error (.internal
      ("UB address must have 5 colon-separated segments: " ++ String.ofList s))

def fromText (s : String) : Except UbError UbAddr :=
  match s.toList with
  | '0' :: 'x' :: rest => fromSegments rest
  | _ => .error (.internal ("UB address must start with '0x': " ++ s))

theorem parseSegment_hex (field : String) (width : ℕ) {n bound : ℕ} (h : n < bound) :
    parseSegment field bound (Hex.hex width n) = .ok n := by
  rw [parseSegment, Hex.fromStrRadix_hex width h]

/-- A colon ends a segment and is never part of one. -/
theorem colon_notMem_hex (width n : ℕ) : ':' ∉ Hex.hex width n := by
  intro hmem
  exact absurd (Hex.isSome_of_mem_hex hmem) (by decide)

section Segments

variable (a : UbAddr)

def segments : List (List Char) :=
  [Hex.hex 4 a.podId.toNat, Hex.hex 4 a.nodeId.toNat, Hex.hex 4 a.deviceId.toNat,
    Hex.hex 16 a.offset.toNat, Hex.hex 4 a.reserved.toNat]

theorem toList_toText : a.toText.toList = '0' :: 'x' :: [':'].intercalate a.segments := by
  simp [toText, segment, segments, List.intercalate]

theorem splitOn_segments : ([':'].intercalate a.segments).splitOn ':' = a.segments := by
  apply List.splitOn_intercalate
  · intro part hpart
    simp only [segments, List.mem_cons, List.not_mem_nil, or_false] at hpart
    rcases hpart with rfl | rfl | rfl | rfl | rfl <;> exact colon_notMem_hex _ _
  · simp [segments]

theorem fromText_toText : fromText a.toText = .ok a := by
  have hparse : fromSegments ([':'].intercalate a.segments) = .ok a := by
    rw [fromSegments, splitOn_segments]
    simp only [segments, parseSegment_hex _ _ a.podId.toNat_lt,
      parseSegment_hex _ _ a.nodeId.toNat_lt, parseSegment_hex _ _ a.deviceId.toNat_lt,
      parseSegment_hex _ _ a.offset.toNat_lt, parseSegment_hex _ _ a.reserved.toNat_lt]
    simp only [Bind.bind, Except.bind, UInt16.ofNat_toNat, UInt64.ofNat_toNat, new_self]
    rfl
  rw [fromText, toList_toText]
  exact hparse

end Segments

/-- Text and bytes hold the whole address, and an address is its five fields:
`new` sets them, and `withOffset` changes one. -/
theorem address_forms :
    (∀ a : UbAddr, fromText a.toText = .ok a ∧ a.toBytes.length = 16 ∧
      fromBytes a.toBytes = a ∧
      a = new a.podId a.nodeId a.deviceId a.offset a.reserved) ∧
    (∀ (pod node dev : UInt16) (off : UInt64) (res : UInt16),
      (new pod node dev off res).podId = pod ∧ (new pod node dev off res).nodeId = node ∧
      (new pod node dev off res).deviceId = dev ∧ (new pod node dev off res).offset = off ∧
      (new pod node dev off res).reserved = res) ∧
    ∀ (a : UbAddr) (o : UInt64),
      (a.withOffset o).offset = o ∧ (a.withOffset o).podId = a.podId ∧
      (a.withOffset o).nodeId = a.nodeId ∧ (a.withOffset o).deviceId = a.deviceId ∧
      (a.withOffset o).reserved = a.reserved := by
  refine ⟨fun a => ⟨a.fromText_toText, a.length_toBytes, a.fromBytes_toBytes, a.new_self.symm⟩,
    fun pod node dev off res => ?_, fun a o => ?_⟩
  · simp
  · simp [withOffset_eq_new]

example : (new 1 0x42 0 0xDEADBEEF 0).toText = "0x0001:0042:0000:00000000deadbeef:0000" := by
  decide

example : fromText "0x1:2:3" =
    .error (.internal "UB address must have 5 colon-separated segments: 1:2:3") := by
  decide

end UbAddr
end UniBus
