import UniBus.Control.Allocations

/-!
# The read loop of a control connection

A length, then one byte more than it says, then the decoder. A decoder allocates
what a count or a length in its payload says; when the allocator turns it down the
process aborts, and no later message is read.
-/
namespace UniBus.Control

open Cursor (Allocation)

/-- What the read loop hands on until it ends, and whether it ends in an abort. -/
structure LoopRun where
  handed : List ControlMsg
  aborted : Bool
  deriving DecidableEq, Repr

/-- The read loop until the stream ends, a length is too large, or a message is cut off. A
message that does not decode is skipped. The two buffers of the loop itself, of at most
1000005 bytes, are taken to be granted. -/
def readLoop (refuses : Allocation → Bool) (stream : List UInt8) : LoopRun :=
  if stream.length < 4 then ⟨[], false⟩
  else
    let lenBuf := stream.take 4
    let len := BigEndian.get lenBuf
    if len > 1000000 then ⟨[], false⟩
    else if stream.length < 4 + (1 + len) then ⟨[], false⟩
    else
      let msgBuf := (stream.drop 4).take (1 + len)
      let rest := stream.drop (4 + (1 + len))
      let (result, allocations) := ControlMsg.decodeMetered (lenBuf ++ msgBuf)
      if allocations.any refuses then ⟨[], true⟩
      else
        match result with
        | .ok msg =>
          let after := readLoop refuses rest
          ⟨msg :: after.handed, after.aborted⟩
        | .error _ => readLoop refuses rest
termination_by stream.length
decreasing_by
  all_goals
    rw [List.length_drop]
    omega

/-- A length of at most 1000000, a byte for the kind, and as many bytes as the length says. -/
structure Framed (buf : List UInt8) : Prop where
  length : buf.length = 4 + (1 + BigEndian.get (buf.take 4))
  short : BigEndian.get (buf.take 4) ≤ 1000000

/-- Decoding the frame asks for something that the allocator does not grant. -/
def refused (refuses : Allocation → Bool) (buf : List UInt8) : Bool :=
  (ControlMsg.decodeMetered buf).2.any refuses

variable {refuses : Allocation → Bool}

theorem readLoop_nil : readLoop refuses [] = ⟨[], false⟩ := by
  rw [readLoop, if_pos (by decide)]

/-- The loop ends at a frame that is refused, and goes on behind any other. -/
theorem readLoop_framed_append {buf : List UInt8} (h : Framed buf) (rest : List UInt8) :
    readLoop refuses (buf ++ rest) =
      if refused refuses buf then ⟨[], true⟩
      else ⟨(ControlMsg.decode buf).toOption.toList ++ (readLoop refuses rest).handed,
        (readLoop refuses rest).aborted⟩ := by
  have hlength := h.length
  have htake : (buf ++ rest).take 4 = buf.take 4 := List.take_append_of_le_length (by omega)
  have hfull :
      buf.take 4 ++ ((buf ++ rest).drop 4).take (1 + BigEndian.get (buf.take 4)) = buf := by
    rw [← htake, ← List.take_add, htake, List.take_left' hlength]
  have hrest : (buf ++ rest).drop (4 + (1 + BigEndian.get (buf.take 4))) = rest :=
    List.drop_left' hlength
  have hlong : 4 + (1 + BigEndian.get (buf.take 4)) ≤ (buf ++ rest).length := by
    rw [List.length_append]
    omega
  rw [readLoop, if_neg (by omega)]
  dsimp only
  rw [htake, if_neg (Nat.not_lt.mpr h.short), if_neg (Nat.not_lt.mpr hlong), hfull, hrest,
    ← decodeMetered_fst, refused]
  split_ifs with hrefused
  · rfl
  · cases (ControlMsg.decodeMetered buf).1 <;> rfl

/-! ## Streams of encoded messages -/

theorem framed_encode {msg : ControlMsg} (hlen : msg.encodePayload.length ≤ 1000000) :
    Framed msg.encode := by
  have hget : BigEndian.get (msg.encode.take 4) = msg.encodePayload.length := by
    rw [ControlMsg.encode, encodeCtrlMessage, List.append_assoc,
      List.take_left' (BigEndian.length_put 4 _), BigEndian.get_put]
    exact Nat.mod_eq_of_lt (by omega)
  refine ⟨?_, hget.trans_le hlen⟩
  rw [hget, ControlMsg.encode, length_encodeCtrlMessage]
  omega

theorem readLoop_encode_append (hgrants : ∀ a, a.Fits → refuses a = false) {msg : ControlMsg}
    (hperms : msg.PermsKnown) (hlen : msg.encodePayload.length ≤ 1000000) (rest : List UInt8) :
    readLoop refuses (msg.encode ++ rest) =
      ⟨msg :: (readLoop refuses rest).handed, (readLoop refuses rest).aborted⟩ := by
  have hdecode : ControlMsg.decode msg.encode = .ok msg :=
    ControlMsg.decode_encode hperms (by omega)
  have hgranted : ¬refused refuses msg.encode = true := by
    rw [refused, List.any_eq_true]
    rintro ⟨a, ha, hrefuses⟩
    rw [hgrants a (decodeMetered_fits_of_accepted hdecode a ha)] at hrefuses
    cases hrefuses
  rw [readLoop_framed_append (framed_encode hlen), if_neg hgranted, hdecode]
  rfl

/-- The read loop recovers a stream of encoded messages, whenever the allocator grants what is
no larger than the rest of the message. -/
theorem read_loop_flatMap_encode (refuses : Allocation → Bool)
    (hgrants : ∀ a, a.Fits → refuses a = false) (msgs : List ControlMsg)
    (h : ∀ msg ∈ msgs, msg.PermsKnown ∧ msg.encodePayload.length ≤ 1000000) :
    readLoop refuses (msgs.flatMap ControlMsg.encode) = ⟨msgs, false⟩ := by
  induction msgs with
  | nil => exact readLoop_nil
  | cons msg msgs ih =>
    obtain ⟨hperms, hlen⟩ := h msg List.mem_cons_self
    rw [List.flatMap_cons, readLoop_encode_append hgrants hperms hlen,
      ih fun m hm => h m (List.mem_cons_of_mem _ hm)]

/-- A published region, then two members of a snapshot, then the reply to a fetch, with an
allocator that grants nothing larger than the rest of the message. -/
theorem read_loop_flatMap_encode_fetch :
    readLoop (fun a => !decide a.Fits) ([.mrPublish ⟨1, 2, ⟨3⟩, 4096, ⟨5⟩, .npu⟩,
        .memberSnapshot ⟨[⟨1, 1, "a:1", "a:2", 7⟩, ⟨2, 0, "b:1", "", 9⟩]⟩,
        .fetchResp ⟨7, 8, [1, 2, 3], 0⟩].flatMap ControlMsg.encode) =
      ⟨[.mrPublish ⟨1, 2, ⟨3⟩, 4096, ⟨5⟩, .npu⟩,
        .memberSnapshot ⟨[⟨1, 1, "a:1", "a:2", 7⟩, ⟨2, 0, "b:1", "", 9⟩]⟩,
        .fetchResp ⟨7, 8, [1, 2, 3], 0⟩], false⟩ :=
  read_loop_flatMap_encode _ (fun a ha => by simp [ha]) _ (by decide)

/-! ## Streams that are cut off -/

end UniBus.Control
