import UniBus.Control.RoundTrip
import UniBus.Foundations.Metered

/-!
# What the decoders allocate

The decoders with a length or a count in their payload allocate what that field
says before they look at the bytes after it. Each of them is written here once
more with its allocations; without the report it is the decoder of the message.
-/
namespace UniBus.Control

open BigEndian (put)
open Cursor (Allocation Metered Takes TakesJust)
open Cursor.Metered (plain alloc collect forget repeated Covered FitsIff)
open Wire (readField readExact)

/-! ## The decoders with their allocations -/

/-- A length, a buffer of that length, and the bytes that fill it. -/
def readBlobMetered : Metered UbError (List UInt8) := do
  let len ← plain readU32
  alloc len.toNat
  plain (readExact len.toNat)

def readStringMetered (field : String) : Metered UbError String := do
  let bytes ← readBlobMetered
  match String.fromUTF8? bytes.toByteArray with
  | some s => return s
  | none => plain (throw (.internal ("invalid " ++ field)))

def HelloPayload.decodeMetered : Metered UbError HelloPayload := do
  let nodeId ← plain readU16
  let version ← plain readU16
  let localEpoch ← plain readU32
  let initialCredits ← plain readU32
  let dataAddr ← readStringMetered "data_addr"
  return { nodeId, version, localEpoch, initialCredits, dataAddr }

def JoinPayload.decodeMetered : Metered UbError JoinPayload := do
  let nodeId ← plain readU16
  let epoch ← plain readU32
  let dataAddr ← readStringMetered "data_addr"
  let controlAddr ← readStringMetered "control_addr"
  let initialCredits ← plain readU32
  return { nodeId, epoch, dataAddr, controlAddr, initialCredits }

def SnapshotNodeInfo.decodeMetered : Metered UbError SnapshotNodeInfo := do
  let nodeId ← plain readU16
  let state ← plain readU8
  let epoch ← plain readU32
  let dataAddr ← readStringMetered "data_addr"
  let controlAddr ← readStringMetered "control_addr"
  return { nodeId, state, dataAddr, controlAddr, epoch }

def MemberSnapshotPayload.decodeMetered : Metered UbError MemberSnapshotPayload := do
  let count ← plain readU32
  let nodes ← collect SnapshotNodeInfo.decodeMetered count.toNat
  return { nodes }

def DeviceProfileEntry.decodeFramedMetered : Metered UbError DeviceProfileEntry := do
  let entryBuf ← readBlobMetered
  match decode entryBuf with
  | .ok (entry, _) => return entry
  | .error e => plain (throw e)

def DeviceProfilePublishPayload.decodeMetered : Metered UbError DeviceProfilePublishPayload := do
  let count ← plain readU32
  let entries ← collect DeviceProfileEntry.decodeFramedMetered count.toNat
  return { entries }

def FetchRespPayload.decodeMetered : Metered UbError FetchRespPayload := do
  let regionId ← plain readU64
  let epoch ← plain readU64
  let payload ← readBlobMetered
  let errorCode ← plain readU32
  return { regionId, epoch, payload, errorCode }

namespace ControlMsg

/-- The payloads of the other types have fields of fixed width only. -/
def meteredReaderFor : CtrlMsgType → Metered UbError ControlMsg
  | .hello => hello <$> HelloPayload.decodeMetered
  | .helloAck => helloAck <$> HelloPayload.decodeMetered
  | .memberUp => memberUp <$> HelloPayload.decodeMetered
  | .memberSnapshot => memberSnapshot <$> MemberSnapshotPayload.decodeMetered
  | .join => join <$> JoinPayload.decodeMetered
  | .deviceProfilePublish => deviceProfilePublish <$> DeviceProfilePublishPayload.decodeMetered
  | .fetchResp => fetchResp <$> FetchRespPayload.decodeMetered
  | msgType => plain (readerFor msgType)

/-- `decode` with the allocations that the payload decoder makes. -/
def decodeMetered (buf : List UInt8) : Except UbError ControlMsg × List Allocation :=
  match decodeCtrlMessage buf with
  | .error e => (.error e, [])
  | .ok (msgType, payload) =>
    let (result, allocations) := meteredReaderFor msgType payload
    (result.map Prod.fst, allocations)

end ControlMsg

/-! ## The decoders without the report -/

@[simp] theorem forget_readBlobMetered : forget readBlobMetered = readBlob := by
  simp [readBlobMetered, readBlob]

@[simp] theorem forget_readStringMetered (field : String) :
    forget (readStringMetered field) = readString field := by
  simp only [readStringMetered, readString, Cursor.Metered.forget_bind, forget_readBlobMetered]
  congr 1
  funext bytes
  cases String.fromUTF8? bytes.toByteArray <;> rfl

@[simp] theorem forget_hello : forget HelloPayload.decodeMetered = HelloPayload.decode := by
  simp [HelloPayload.decodeMetered, HelloPayload.decode]

@[simp] theorem forget_join : forget JoinPayload.decodeMetered = JoinPayload.decode := by
  simp [JoinPayload.decodeMetered, JoinPayload.decode]

@[simp] theorem forget_snapshotNode :
    forget SnapshotNodeInfo.decodeMetered = SnapshotNodeInfo.decode := by
  simp [SnapshotNodeInfo.decodeMetered, SnapshotNodeInfo.decode]

@[simp] theorem forget_memberSnapshot :
    forget MemberSnapshotPayload.decodeMetered = MemberSnapshotPayload.decode := by
  simp [MemberSnapshotPayload.decodeMetered, MemberSnapshotPayload.decode]

@[simp] theorem forget_decodeFramed :
    forget DeviceProfileEntry.decodeFramedMetered = DeviceProfileEntry.decodeFramed := by
  simp only [DeviceProfileEntry.decodeFramedMetered, DeviceProfileEntry.decodeFramed,
    Cursor.Metered.forget_bind, forget_readBlobMetered]
  congr 1
  funext entryBuf
  cases DeviceProfileEntry.decode entryBuf <;> rfl

@[simp] theorem forget_deviceProfilePublish :
    forget DeviceProfilePublishPayload.decodeMetered = DeviceProfilePublishPayload.decode := by
  simp [DeviceProfilePublishPayload.decodeMetered, DeviceProfilePublishPayload.decode]

@[simp] theorem forget_fetchResp :
    forget FetchRespPayload.decodeMetered = FetchRespPayload.decode := by
  simp [FetchRespPayload.decodeMetered, FetchRespPayload.decode]

theorem forget_meteredReaderFor (msgType : CtrlMsgType) :
    forget (ControlMsg.meteredReaderFor msgType) = ControlMsg.readerFor msgType := by
  cases msgType <;> simp [ControlMsg.meteredReaderFor, ControlMsg.readerFor]

theorem decodeMetered_fst (buf : List UInt8) :
    (ControlMsg.decodeMetered buf).1 = ControlMsg.decode buf := by
  unfold ControlMsg.decodeMetered ControlMsg.decode
  cases decodeCtrlMessage buf with
  | error e => rfl
  | ok framed =>
    have hread : (ControlMsg.meteredReaderFor framed.1 framed.2).1 =
        ControlMsg.readerFor framed.1 framed.2 :=
      congrFun (forget_meteredReaderFor framed.1) framed.2
    change (ControlMsg.meteredReaderFor framed.1 framed.2).1.map Prod.fst = _
    rw [hread]
    change _ = (ControlMsg.readerFor framed.1 framed.2).bind fun decoded => .ok decoded.1
    cases ControlMsg.readerFor framed.1 framed.2 <;> rfl

/-! ## What the decoders take -/

theorem takesJust_int {α : Type} (width : ℕ) (ofNat : ℕ → α) :
    TakesJust width (readInt width ofNat) := by
  intro cursor
  simp only [readInt, readField, BigEndian.read]
  split_ifs with hshort
  · exact .inl ⟨hshort, _, rfl⟩
  · exact .inr ⟨_, rfl⟩

theorem takes_int {α : Type} (width : ℕ) (ofNat : ℕ → α) : Takes width (readInt width ofNat) := by
  intro cursor a rest h
  simp only [readInt, readField, BigEndian.read] at h
  split_ifs at h with hshort
  · cases h
  · cases h
    rw [List.length_drop]
    omega

theorem takes_readExact (width : ℕ) : Takes width (readExact width) := by
  intro cursor a rest h
  unfold readExact at h
  split_ifs at h with hshort
  cases h
  rw [List.length_drop]
  omega

theorem takes_blob : Takes 4 readBlob :=
  (takes_int 4 UInt32.ofNat).bind fun len => (takes_readExact len.toNat).mono (Nat.zero_le _)

theorem takes_string (field : String) : Takes 4 (readString field) := by
  refine Takes.bind (k := 4) (l := 0) takes_blob fun bytes => ?_
  cases String.fromUTF8? bytes.toByteArray with
  | none => exact Cursor.takes_throw 0 _
  | some s => exact Cursor.takes_pure s

theorem takes_snapshotNode : Takes 15 SnapshotNodeInfo.decode :=
  (takes_int 2 _).bind fun _ => (takes_int 1 _).bind fun _ => (takes_int 4 _).bind fun _ =>
    (takes_string _).bind fun _ => (takes_string _).bind fun _ => Cursor.takes_pure _

theorem takes_decodeFramed : Takes 4 DeviceProfileEntry.decodeFramed := by
  refine Takes.bind (k := 4) (l := 0) takes_blob fun entryBuf => ?_
  cases DeviceProfileEntry.decode entryBuf with
  | error e => exact Cursor.takes_throw 0 e
  | ok entry => exact Cursor.takes_pure entry.1

/-! ## What fits in an accepted payload -/

theorem covered_blob : Covered readBlobMetered :=
  (Cursor.Metered.covered_plain _).bind fun len =>
    Cursor.Metered.covered_fill (takes_readExact len.toNat)

theorem covered_string (field : String) : Covered (readStringMetered field) := by
  apply covered_blob.bind
  intro bytes
  cases String.fromUTF8? bytes.toByteArray with
  | none => exact Cursor.Metered.covered_plain _
  | some s => exact Cursor.Metered.covered_pure s

theorem covered_hello : Covered HelloPayload.decodeMetered :=
  (Cursor.Metered.covered_plain _).bind fun _ => (Cursor.Metered.covered_plain _).bind fun _ =>
    (Cursor.Metered.covered_plain _).bind fun _ => (Cursor.Metered.covered_plain _).bind fun _ =>
      (covered_string _).map _

theorem covered_join : Covered JoinPayload.decodeMetered :=
  (Cursor.Metered.covered_plain _).bind fun _ => (Cursor.Metered.covered_plain _).bind fun _ =>
    (covered_string _).bind fun _ => (covered_string _).bind fun _ =>
      (Cursor.Metered.covered_plain _).map _

theorem covered_snapshotNode : Covered SnapshotNodeInfo.decodeMetered :=
  (Cursor.Metered.covered_plain _).bind fun _ => (Cursor.Metered.covered_plain _).bind fun _ =>
    (Cursor.Metered.covered_plain _).bind fun _ => (covered_string _).bind fun _ =>
      (covered_string _).map _

theorem covered_decodeFramed : Covered DeviceProfileEntry.decodeFramedMetered := by
  apply covered_blob.bind
  intro entryBuf
  cases DeviceProfileEntry.decode entryBuf with
  | error e => exact Cursor.Metered.covered_plain _
  | ok entry => exact Cursor.Metered.covered_pure entry.1

theorem covered_fetchResp : Covered FetchRespPayload.decodeMetered :=
  (Cursor.Metered.covered_plain _).bind fun _ => (Cursor.Metered.covered_plain _).bind fun _ =>
    covered_blob.bind fun _ => (Cursor.Metered.covered_plain _).map _

theorem covered_memberSnapshot : Covered MemberSnapshotPayload.decodeMetered := by
  have htakes : Takes 1 (forget SnapshotNodeInfo.decodeMetered) := by
    rw [forget_snapshotNode]
    exact takes_snapshotNode.mono (by decide)
  exact (Cursor.Metered.covered_plain _).bind fun count =>
    (covered_snapshotNode.collect htakes count.toNat).map _

theorem covered_deviceProfilePublish : Covered DeviceProfilePublishPayload.decodeMetered := by
  have htakes : Takes 1 (forget DeviceProfileEntry.decodeFramedMetered) := by
    rw [forget_decodeFramed]
    exact takes_decodeFramed.mono (by decide)
  exact (Cursor.Metered.covered_plain _).bind fun count =>
    (covered_decodeFramed.collect htakes count.toNat).map _

theorem covered_meteredReaderFor (msgType : CtrlMsgType) :
    Covered (ControlMsg.meteredReaderFor msgType) := by
  cases msgType with
  | hello | helloAck | memberUp => exact covered_hello.map _
  | memberSnapshot => exact covered_memberSnapshot.map _
  | join => exact covered_join.map _
  | deviceProfilePublish => exact covered_deviceProfilePublish.map _
  | fetchResp => exact covered_fetchResp.map _
  | _ => exact Cursor.Metered.covered_plain _

theorem decodeMetered_fits_of_accepted {buf : List UInt8} {msg : ControlMsg}
    (h : ControlMsg.decode buf = .ok msg) : ∀ a ∈ (ControlMsg.decodeMetered buf).2, a.Fits := by
  rw [← decodeMetered_fst] at h
  unfold ControlMsg.decodeMetered at h ⊢
  cases hframe : decodeCtrlMessage buf with
  | error e => simp [hframe] at h
  | ok framed =>
    simp only [hframe] at h ⊢
    cases hresult : (ControlMsg.meteredReaderFor framed.1 framed.2).1 with
    | error e => simp [hresult, Except.map] at h
    | ok decoded => exact covered_meteredReaderFor framed.1 framed.2 decoded hresult

/-! ## What fits in any payload -/

/-- A check of the number in the first four bytes and of what follows them; where they are
cut off the decoder stops. -/
def numberFits (rest : List UInt8) (next : ℕ → List UInt8 → Bool) : Bool :=
  rest.length < 4 || next (BigEndian.get (rest.take 4)) (rest.drop 4)

/-- A length is at most the number of bytes after it; the rest is checked behind them. -/
def lengthFits (rest : List UInt8) (next : List UInt8 → List UInt8 → Bool) : Bool :=
  numberFits rest fun len rest => len ≤ rest.length && next (rest.take len) (rest.drop len)

/-- The decoder goes on behind a string only if its bytes are UTF-8. -/
def stringFits (rest : List UInt8) (next : List UInt8 → Bool) : Bool :=
  lengthFits rest fun bytes rest => (String.fromUTF8? bytes.toByteArray).isNone || next rest

/-- A count is at most the number of bytes after it, whatever an element takes. -/
def countFits (rest : List UInt8) (element : List UInt8 → (List UInt8 → Bool) → Bool) : Bool :=
  numberFits rest fun count rest => count ≤ rest.length && repeated element count rest

/-- Every count and every length that the decoder comes to is at most the number of payload
bytes after it. -/
def fieldsFit (payload : List UInt8) : CtrlMsgType → Bool
  | .hello | .helloAck | .memberUp => stringFits (payload.drop 12) fun _ => true
  | .join => stringFits (payload.drop 6) fun rest => stringFits rest fun _ => true
  | .memberSnapshot => countFits payload fun rest next =>
      stringFits (rest.drop 7) fun rest => stringFits rest next
  | .deviceProfilePublish => countFits payload fun rest next =>
      lengthFits rest fun entry rest => !(DeviceProfileEntry.decode entry).isOk || next rest
  | .fetchResp => lengthFits (payload.drop 16) fun _ _ => true
  | _ => true

section FieldsFit

variable {β : Type} {next : List UInt8 → Bool}

theorem fitsIff_number {f : UInt32 → Metered UbError β} {next : ℕ → List UInt8 → Bool}
    (hf : ∀ v, FitsIff (f v) (next v.toNat)) :
    FitsIff (plain readU32 >>= f) fun rest => numberFits rest next := by
  intro cursor
  by_cases hshort : cursor.length < 4
  · have hread : readU32 cursor = .error (.internal "failed to fill whole buffer") := by
      simp only [readU32, readInt, readField, BigEndian.read, if_pos hshort]
      rfl
    have hrun : (plain readU32 >>= f) cursor = (.error _, []) := Cursor.Metered.bind_error hread
    rw [hrun]
    simp [numberFits, hshort]
  · have hread : readU32 cursor =
        .ok (UInt32.ofNat (BigEndian.get (cursor.take 4)), cursor.drop 4) := by
      simp only [readU32, readInt, readField, BigEndian.read, if_neg hshort]
      rfl
    have hrun : (plain readU32 >>= f) cursor = f _ (cursor.drop 4) :=
      Cursor.Metered.bind_ok hread
    have hlt : BigEndian.get (cursor.take 4) < 2 ^ 32 := by
      have hget := BigEndian.get_lt (cursor.take 4)
      rwa [List.length_take_of_le (Nat.not_lt.mp hshort)] at hget
    rw [hrun, hf, UInt32.toNat_ofNat_of_lt' hlt]
    simp [numberFits, hshort]

theorem fitsIff_fill {f : List UInt8 → Metered UbError β}
    {next : List UInt8 → List UInt8 → Bool} (hf : ∀ bytes, FitsIff (f bytes) (next bytes))
    (n : ℕ) :
    FitsIff (alloc n >>= fun _ => plain (readExact n) >>= f) fun rest =>
      n ≤ rest.length && next (rest.take n) (rest.drop n) := by
  intro cursor
  have halloc : (alloc n >>= fun _ => plain (readExact n) >>= f) cursor =
      (((plain (readExact n) >>= f) cursor).1,
        ⟨n, cursor.length⟩ :: ((plain (readExact n) >>= f) cursor).2) := rfl
  rw [halloc, List.forall_mem_cons, Bool.and_eq_true, decide_eq_true_eq]
  apply and_congr_right
  intro hfits
  have hread : readExact n cursor = .ok (cursor.take n, cursor.drop n) :=
    if_neg (Nat.not_lt.mpr hfits)
  have hrun : (plain (readExact n) >>= f) cursor = f _ (cursor.drop n) :=
    Cursor.Metered.bind_ok hread
  rw [hrun]
  exact hf _ _

theorem fitsIff_blob {f : List UInt8 → Metered UbError β} {next : List UInt8 → List UInt8 → Bool}
    (hf : ∀ bytes, FitsIff (f bytes) (next bytes)) :
    FitsIff (readBlobMetered >>= f) fun rest => lengthFits rest next := by
  simp only [readBlobMetered, bind_assoc]
  exact fitsIff_number fun len => fitsIff_fill hf len.toNat

theorem fitsIff_string {f : String → Metered UbError β} (field : String)
    (hf : ∀ s, FitsIff (f s) next) :
    FitsIff (readStringMetered field >>= f) fun rest => stringFits rest next := by
  rw [readStringMetered, bind_assoc]
  apply fitsIff_blob
  intro bytes
  cases String.fromUTF8? bytes.toByteArray with
  | none => exact Cursor.Metered.fitsIff_plain _
  | some s => simpa using hf s

theorem fitsIff_hello :
    FitsIff HelloPayload.decodeMetered fun payload =>
      stringFits (payload.drop 12) fun _ => true := by
  have h := FitsIff.skip (takesJust_int 2 UInt16.ofNat) (fun nodeId =>
    FitsIff.skip (takesJust_int 2 UInt16.ofNat) (fun version =>
    FitsIff.skip (takesJust_int 4 UInt32.ofNat) (fun localEpoch =>
    FitsIff.skip (takesJust_int 4 UInt32.ofNat) (fun initialCredits =>
      fitsIff_string "data_addr" fun dataAddr => Cursor.Metered.fitsIff_pure
        (HelloPayload.mk nodeId version localEpoch initialCredits dataAddr)) rfl) rfl) rfl) rfl
  simp only [List.drop_drop] at h
  exact h

theorem fitsIff_join :
    FitsIff JoinPayload.decodeMetered fun payload =>
      stringFits (payload.drop 6) fun rest => stringFits rest fun _ => true := by
  have h := FitsIff.skip (takesJust_int 2 UInt16.ofNat) (fun nodeId =>
    FitsIff.skip (takesJust_int 4 UInt32.ofNat) (fun epoch =>
      fitsIff_string "data_addr" fun dataAddr =>
      fitsIff_string "control_addr" fun controlAddr =>
        (Cursor.Metered.fitsIff_plain readU32).map
          (JoinPayload.mk nodeId epoch dataAddr controlAddr)) rfl) rfl
  simp only [List.drop_drop] at h
  exact h

theorem fitsIff_snapshotNode {f : SnapshotNodeInfo → Metered UbError β}
    (hf : ∀ node, FitsIff (f node) next) :
    FitsIff (SnapshotNodeInfo.decodeMetered >>= f) fun rest =>
      stringFits (rest.drop 7) fun rest => stringFits rest next := by
  have h := FitsIff.skip (takesJust_int 2 UInt16.ofNat) (fun nodeId =>
    FitsIff.skip (takesJust_int 1 UInt8.ofNat) (fun state =>
    FitsIff.skip (takesJust_int 4 UInt32.ofNat) (fun epoch =>
      fitsIff_string "data_addr" fun dataAddr =>
      fitsIff_string "control_addr" fun controlAddr =>
        hf ⟨nodeId, state, dataAddr, controlAddr, epoch⟩) rfl) rfl) rfl
  simp only [List.drop_drop] at h
  simp only [SnapshotNodeInfo.decodeMetered, bind_assoc, pure_bind]
  exact h

theorem fitsIff_decodeFramed {f : DeviceProfileEntry → Metered UbError β}
    (hf : ∀ entry, FitsIff (f entry) next) :
    FitsIff (DeviceProfileEntry.decodeFramedMetered >>= f) fun rest =>
      lengthFits rest fun entry rest =>
        !(DeviceProfileEntry.decode entry).isOk || next rest := by
  rw [DeviceProfileEntry.decodeFramedMetered, bind_assoc]
  apply fitsIff_blob
  intro entryBuf
  cases DeviceProfileEntry.decode entryBuf with
  | error e => exact Cursor.Metered.fitsIff_plain _
  | ok entry => simpa [Except.isOk, Except.toBool] using hf entry.1

theorem fitsIff_memberSnapshot :
    FitsIff MemberSnapshotPayload.decodeMetered fun payload => countFits payload fun rest next =>
      stringFits (rest.drop 7) fun rest => stringFits rest next :=
  fitsIff_number fun count =>
    (FitsIff.collect (fun _ _ hf => fitsIff_snapshotNode hf) count.toNat).map
      MemberSnapshotPayload.mk

theorem fitsIff_deviceProfilePublish :
    FitsIff DeviceProfilePublishPayload.decodeMetered fun payload =>
      countFits payload fun rest next => lengthFits rest fun entry rest =>
        !(DeviceProfileEntry.decode entry).isOk || next rest :=
  fitsIff_number fun count =>
    (FitsIff.collect (fun _ _ hf => fitsIff_decodeFramed hf) count.toNat).map
      DeviceProfilePublishPayload.mk

theorem fitsIff_fetchResp :
    FitsIff FetchRespPayload.decodeMetered fun payload =>
      lengthFits (payload.drop 16) fun _ _ => true := by
  have h := FitsIff.skip (takesJust_int 8 UInt64.ofNat) (fun regionId =>
    FitsIff.skip (takesJust_int 8 UInt64.ofNat) (fun epoch =>
      fitsIff_blob fun bytes => (Cursor.Metered.fitsIff_plain readU32).map
        (FetchRespPayload.mk regionId epoch bytes)) rfl) rfl
  simp only [List.drop_drop] at h
  exact h

theorem fitsIff_meteredReaderFor (msgType : CtrlMsgType) :
    FitsIff (ControlMsg.meteredReaderFor msgType) fun payload => fieldsFit payload msgType := by
  cases msgType with
  | hello | helloAck | memberUp => exact fitsIff_hello.map _
  | memberSnapshot => exact fitsIff_memberSnapshot.map _
  | join => exact fitsIff_join.map _
  | deviceProfilePublish => exact fitsIff_deviceProfilePublish.map _
  | fetchResp => exact fitsIff_fetchResp.map _
  | _ => exact Cursor.Metered.fitsIff_plain _

end FieldsFit

/-! ## Whole messages -/

theorem decodeMetered_encode (msgType : CtrlMsgType) {payload : List UInt8}
    (h : payload.length < 2 ^ 32) :
    ControlMsg.decodeMetered (encodeCtrlMessage msgType payload) =
      ((ControlMsg.meteredReaderFor msgType payload).1.map Prod.fst,
        (ControlMsg.meteredReaderFor msgType payload).2) := by
  rw [ControlMsg.decodeMetered, decodeCtrlMessage_encode msgType h]

/-- Every allocation of a decoder is at most as large as the rest of the payload just in
case every count and length field it comes to is; for an accepted message all of them are. -/
theorem allocations_fit_iff (msgType : CtrlMsgType) (payload : List UInt8)
    (h : payload.length ≤ 1000000) :
    let buf := encodeCtrlMessage msgType payload
    let allocations := (ControlMsg.decodeMetered buf).2
    (ControlMsg.decodeMetered buf).1 = ControlMsg.decode buf ∧
    ((∀ a ∈ allocations, a.Fits) ↔ fieldsFit payload msgType = true) ∧
    ∀ msg, ControlMsg.decode buf = .ok msg → ∀ a ∈ allocations, a.Fits := by
  intro buf allocations
  have hrun : ControlMsg.decodeMetered buf = _ := decodeMetered_encode msgType (by omega)
  have hallocations : allocations = (ControlMsg.meteredReaderFor msgType payload).2 :=
    congrArg Prod.snd hrun
  refine ⟨decodeMetered_fst buf, ?_, fun msg => decodeMetered_fits_of_accepted⟩
  rw [hallocations]
  exact fitsIff_meteredReaderFor msgType payload

/-- Three bytes of a region with the error code cut off after them: the message does not
decode, and its buffer fits. -/
theorem allocations_fit_iff_fetched :
    let payload := put 8 1 ++ put 8 1 ++ put 4 3 ++ [7, 8, 9]
    let buf := encodeCtrlMessage .fetchResp payload
    ControlMsg.decode buf = .error (.internal "failed to fill whole buffer") ∧
      (ControlMsg.decodeMetered buf).2 = [⟨3, 3⟩] ∧ fieldsFit payload .fetchResp = true ∧
      ∀ a ∈ (ControlMsg.decodeMetered buf).2, a.Fits := by
  intro payload buf
  refine ⟨by decide, by decide, by decide, ?_⟩
  exact (allocations_fit_iff .fetchResp payload (by decide)).2.1.mpr (by decide)

/-- Four bytes of payload ask for room for 4294967295 nodes, and twenty for a buffer of
4294967295 bytes; nothing is left to fill either. -/
theorem allocations_unchecked :
    (ControlMsg.decodeMetered (encodeCtrlMessage .memberSnapshot [255, 255, 255, 255])).2 =
      [⟨4294967295, 0⟩] ∧
    (ControlMsg.decodeMetered (encodeCtrlMessage .fetchResp
      (put 8 1 ++ put 8 1 ++ [255, 255, 255, 255]))).2 = [⟨4294967295, 0⟩] ∧
    ¬Allocation.Fits ⟨4294967295, 0⟩ := by
  decide

end UniBus.Control
