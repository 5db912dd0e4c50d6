import UniBus.Foundations.Checked
import UniBus.Transport.Manager
import UniBus.Wire.Canonical

/-!
# Panics of the transport

The receive path of the transport with every sum, difference, shift, index and
unwrap checked: a function whose name ends in a question mark is the function of
that name as a debug build runs it, and `none` is a panic. As long as the
counters of a session have room (`Calm`), nothing on the path panics.
-/
namespace UniBus.Transport

open Wire

/-! ## The receive window -/

namespace DedupWindow

variable (d : DedupWindow)

def isBitSet? (offset : ℕ) : Option Bool :=
  if offset ≥ d.windowSize then some false
  else do
    let word ← d.seen[offset / 64]?
    let shifted ← Checked.shiftRight word (offset % 64)
    return (shifted &&& 1#64) == 1#64

def setBit? (offset : ℕ) : Option DedupWindow :=
  if offset ≥ d.windowSize then some d
  else do
    let seen ← Checked.setBit d.seen offset
    return { d with seen }

/-- The shift loop runs over the words of a vector and has its bounds built in. -/
def slideOne? : Option DedupWindow := do
  let nextExpected ← Checked.add 64 d.nextExpected 1
  return { d with nextExpected, seen := WordBits.shiftDown d.seen }

def slideWhile? : ℕ → DedupWindow → Option DedupWindow
  | 0, d => some d
  | fuel + 1, d => do
    if ← d.isBitSet? 0 then slideWhile? fuel (← d.slideOne?) else return d

def check? (seq : ℕ) : Option DedupResult :=
  if seq < d.nextExpected then some .alreadySeen
  else if seq = d.nextExpected then some .inOrder
  else do
    let offset ← Checked.sub seq d.nextExpected
    if offset ≥ d.windowSize then return .beyondWindow
    else if ← d.isBitSet? offset then return .alreadySeen
    else return .outOfOrder

def markAndAdvance? (seq : ℕ) : Option DedupWindow :=
  if seq < d.nextExpected then some d
  else do
    let offset ← Checked.sub seq d.nextExpected
    if offset ≥ d.windowSize then return d
    else slideWhile? 1024 (← d.setBit? offset)

def isSeen? (seq : ℕ) : Option Bool :=
  if seq < d.nextExpected then some true
  else do
    let offset ← Checked.sub seq d.nextExpected
    if offset ≥ d.windowSize then return false else d.isBitSet? offset

@[simp] theorem isBitSet?_eq (offset : ℕ) : d.isBitSet? offset = some (d.isBitSet offset) := by
  unfold isBitSet? isBitSet
  by_cases h : offset ≥ d.windowSize
  · rw [if_pos h, dif_pos h]
  · have hword := d.word_lt h
    rw [if_neg h, dif_neg h, Vector.getElem?_eq_getElem hword]
    simp [Checked.shiftRight_eq_some (Nat.mod_lt offset (by decide : 0 < 64))]

@[simp] theorem setBit?_eq (offset : ℕ) : d.setBit? offset = some (d.setBit offset) := by
  unfold setBit? setBit
  by_cases h : offset ≥ d.windowSize
  · rw [if_pos h, if_pos h]
  · have hbit : offset < 16 * 64 := by
      have := d.windowSize_le
      omega
    rw [if_neg h, if_neg h, Checked.setBit_eq_some hbit]
    rfl

theorem slideWhile?_eq (fuel : ℕ) (d : DedupWindow) (h : d.nextExpected + fuel < 2 ^ 64) :
    slideWhile? fuel d = some (slideWhile fuel d) := by
  induction fuel generalizing d with
  | zero => rfl
  | succ fuel ih =>
    have hslide : d.slideOne? = some d.slideOne := by
      rw [slideOne?, Checked.add_eq_some (by omega)]
      rfl
    rw [slideWhile?, slideWhile, isBitSet?_eq, hslide]
    cases d.isBitSet 0 with
    | false => rfl
    | true => exact ih d.slideOne (by rw [slideOne_nextExpected]; omega)

@[simp] theorem check?_eq (seq : ℕ) : d.check? seq = some (d.check seq) := by
  unfold check? check
  by_cases hlt : seq < d.nextExpected
  · rw [if_pos hlt, if_pos hlt]
  · rw [if_neg hlt, if_neg hlt, Checked.sub_eq_some (Nat.not_lt.mp hlt)]
    dsimp only [Option.bind_eq_bind, Option.bind_some]
    split_ifs <;> simp_all

theorem markAndAdvance?_eq (seq : ℕ) (h : d.nextExpected + 1024 < 2 ^ 64) :
    d.markAndAdvance? seq = some (d.markAndAdvance seq) := by
  unfold markAndAdvance? markAndAdvance
  by_cases hlt : seq < d.nextExpected
  · rw [if_pos hlt, if_pos hlt]
  · rw [if_neg hlt, if_neg hlt, Checked.sub_eq_some (Nat.not_lt.mp hlt)]
    dsimp only [Option.bind_eq_bind, Option.bind_some]
    rw [setBit?_eq]
    split_ifs
    · rfl
    · exact slideWhile?_eq 1024 _ (by rwa [setBit_nextExpected])

@[simp] theorem isSeen?_eq (seq : ℕ) : d.isSeen? seq = some (d.isSeen seq) := by
  unfold isSeen? isSeen
  by_cases hlt : seq < d.nextExpected
  · rw [if_pos hlt, if_pos hlt]
  · rw [if_neg hlt, if_neg hlt, Checked.sub_eq_some (Nat.not_lt.mp hlt)]
    dsimp only [Option.bind_eq_bind, Option.bind_some]
    split_ifs <;> simp

theorem nextExpected_slideWhile_le (fuel : ℕ) :
    (slideWhile fuel d).nextExpected ≤ d.nextExpected + fuel := by
  induction fuel generalizing d with
  | zero => exact le_rfl
  | succ fuel ih =>
    unfold slideWhile
    split_ifs
    · have := ih d.slideOne
      rw [slideOne_nextExpected] at this
      omega
    · omega

theorem nextExpected_markAndAdvance_le (seq : ℕ) :
    (d.markAndAdvance seq).nextExpected ≤ d.nextExpected + 1024 := by
  unfold markAndAdvance
  dsimp only
  split_ifs
  · omega
  · omega
  · simpa using nextExpected_slideWhile_le (d.setBit (seq - d.nextExpected)) 1024

end DedupWindow

/-! ## The response cache -/

namespace ReadResponseCache

variable (c : ReadResponseCache)

def get? (now : Instant) (key : CacheKey) :
    Option (ReadResponseCache × Option (List UInt8)) :=
  match c.entries.lookup key with
  | none => some (c, none)
  | some entry =>
    if now - entry.insertedAt > c.ttl then
      some ({ c with entries := c.entries.erase key }, none)
    else do
      let nextOrder ← Checked.add 64 c.nextOrder 1
      return ({ c with
          entries := c.entries.insert key { entry with order := c.nextOrder }
          nextOrder },
        some entry.response)

def insert? (now : Instant) (key : CacheKey) (response : List UInt8) :
    Option ReadResponseCache := do
  let c := (c.removeExpired now).evictIfFull
  let nextOrder ← Checked.add 64 c.nextOrder 1
  return { c with entries := c.entries.insert key ⟨response, now, c.nextOrder⟩, nextOrder }

theorem get?_eq (now : Instant) (key : CacheKey) (h : c.nextOrder + 1 < 2 ^ 64) :
    c.get? now key = some (c.get now key) := by
  unfold get? get
  rw [Checked.add_eq_some h]
  cases c.entries.lookup key with
  | none => rfl
  | some entry =>
    dsimp only
    split_ifs <;> rfl

@[simp] theorem evictIfFull_nextOrder : c.evictIfFull.nextOrder = c.nextOrder := by
  unfold evictIfFull
  split_ifs
  · split <;> rfl
  · rfl

theorem insert?_eq (now : Instant) (key : CacheKey) (response : List UInt8)
    (h : c.nextOrder + 1 < 2 ^ 64) :
    c.insert? now key response = some (c.insert now key response) := by
  have hroom : (c.removeExpired now).evictIfFull.nextOrder + 1 < 2 ^ 64 := by
    rwa [evictIfFull_nextOrder]
  rw [insert?, Checked.add_eq_some hroom]
  rfl

theorem nextOrder_get_of_none {now : Instant} {key : CacheKey} (h : (c.get now key).2 = none) :
    (c.get now key).1.nextOrder = c.nextOrder := by
  unfold get at h ⊢
  split
  · rfl
  · rename_i entry hentry
    simp only [hentry] at h
    split_ifs at h ⊢
    rfl

end ReadResponseCache

/-! ## Sessions -/

namespace ReliableSession

variable (s : ReliableSession)

def receiveFrame? (seq : ℕ) : Option (ReliableSession × ReceiveAction) := do
  let framesSinceLastAck ← Checked.addU32 s.framesSinceLastAck 1
  let creditsToGrant ← Checked.addU32 s.creditsToGrant 1
  let s := { s with framesSinceLastAck, creditsToGrant }
  match ← s.dedup.check? seq with
  | .inOrder => return ({ s with dedup := ← s.dedup.markAndAdvance? seq }, .deliver)
  | .alreadySeen => return (s, .duplicate)
  | .outOfOrder => return ({ s with dedup := ← s.dedup.markAndAdvance? seq }, .outOfOrder)
  | .beyondWindow => return (s, .beyondWindow)

def sackBitmap? (base : ℕ) : Option (Vector (BitVec 8) 32) :=
  (List.range 256).foldlM
    (fun bitmap i => do
      let seq ← Checked.add 64 base i
      if ← s.dedup.isSeen? seq then Checked.setBit bitmap i else return bitmap)
    (Vector.replicate 32 0#8)

def buildAckPayload? (hasGap : Bool) : Option (ReliableSession × AckPayload) := do
  let ackSeq := s.dedup.nextExpected - 1
  let cleared := { s with creditsToGrant := 0, framesSinceLastAck := 0 }
  if hasGap then
    let bitmap ← s.sackBitmap? (← Checked.add 64 ackSeq 1)
    return (cleared,
      ⟨UInt64.ofNat ackSeq, s.creditsToGrant, 0, some (bitmap.map UInt8.ofBitVec)⟩)
  else return (cleared, ⟨UInt64.ofNat ackSeq, s.creditsToGrant, 0, none⟩)

def onNewAck? : Option ReliableSession := do
  let cwnd ←
    if s.cwnd < s.ssthresh then some (UInt32.ofNat (min (s.cwnd.toNat * 2) 0xFFFFFFFF))
    else Checked.addU32 s.cwnd 1
  return { s with cwnd, dupAckCount := 0 }

def processAck? (now : Instant) (ack : AckPayload) :
    Option (ReliableSession × List RetransmitEntry) := do
  let ackSeq := ack.ackSeq.toNat
  let isNewAck := decide (ackSeq > s.lastAckSeq)
  let removed := s.retransmitQueue.filter (ackedBy ackSeq)
  let keep := s.retransmitQueue.filter fun e => !ackedBy ackSeq e
  let s := if isNewAck then removed.foldl (fun s entry => s.sampleEntry now entry) s else s
  let s := { s with retransmitQueue := keep }.addCredits ack.creditGrant
  return (← if isNewAck then s.onNewAck? else some s, removed)

def processAckForFastRetransmit? (ack : AckPayload) : Option (ReliableSession × Option ℕ) :=
  let ackSeq := ack.ackSeq.toNat
  if ackSeq > s.lastAckSeq then some ({ s with lastAckSeq := ackSeq, dupAckCount := 0 }, none)
  else do
    let count ← Checked.addU32 s.dupAckCount 1
    if count ≥ 3 then
      let seq ← Checked.add 64 ackSeq 1
      return ({ s with dupAckCount := 0 }, some seq)
    else return ({ s with dupAckCount := count }, none)

/-- The counters of a session have room for one more frame. -/
structure Calm : Prop where
  nextExpected : s.dedup.nextExpected + 2048 < 2 ^ 64
  framesSinceLastAck : s.framesSinceLastAck.toNat + 1 < 2 ^ 32
  creditsToGrant : s.creditsToGrant.toNat + 1 < 2 ^ 32
  dupAckCount : s.dupAckCount.toNat + 1 < 2 ^ 32
  lastAckSeq : s.lastAckSeq + 1 < 2 ^ 64
  nextOrder : s.readCache.nextOrder + 1 < 2 ^ 64

theorem calm_new (localNode remoteNode : UInt16) (epoch : UInt32) (rtoBaseMs maxRetries : ℕ)
    (initialCredits : UInt32) :
    (new localNode remoteNode epoch rtoBaseMs maxRetries initialCredits).Calm := by
  constructor <;> simp [new, DedupWindow.new, DedupWindow.withWindowSize,
    ReadResponseCache.defaultCache, ReadResponseCache.new]

variable {s}

theorem receiveFrame?_eq_of_lt (hnext : s.dedup.nextExpected + 1024 < 2 ^ 64)
    (hframes : s.framesSinceLastAck.toNat + 1 < 2 ^ 32)
    (hcredits : s.creditsToGrant.toNat + 1 < 2 ^ 32) (seq : ℕ) :
    s.receiveFrame? seq = some (s.receiveFrame seq) := by
  have hmark := s.dedup.markAndAdvance?_eq seq hnext
  rw [receiveFrame?, receiveFrame, Checked.addU32_one hframes, Checked.addU32_one hcredits]
  dsimp only [Option.bind_eq_bind, Option.bind_some]
  rw [DedupWindow.check?_eq, hmark]
  cases s.dedup.check seq <;> rfl

theorem receiveFrame?_eq (h : s.Calm) (seq : ℕ) :
    s.receiveFrame? seq = some (s.receiveFrame seq) := by
  have hroom := h.nextExpected
  exact receiveFrame?_eq_of_lt (by omega) h.framesSinceLastAck h.creditsToGrant seq

/-- After a frame the window has still room for the numbers of a bitmap. -/
theorem Calm.nextExpected_receiveFrame (h : s.Calm) (seq : ℕ) :
    (s.receiveFrame seq).1.dedup.nextExpected + 257 < 2 ^ 64 := by
  have hroom := h.nextExpected
  have hmark := s.dedup.nextExpected_markAndAdvance_le seq
  rw [receiveFrame_dedup]
  split_ifs <;> omega

theorem sackBitmap?_eq {base : ℕ} (h : base + 256 < 2 ^ 64) :
    s.sackBitmap? base = some (s.sackBitmap base) := by
  apply Checked.foldlM_eq_some
  intro bitmap i hi
  have hlt : i < 256 := List.mem_range.mp hi
  rw [Checked.add_eq_some (by omega), Checked.setBit_eq_some (by omega)]
  dsimp only [Option.bind_eq_bind, Option.bind_some]
  rw [DedupWindow.isSeen?_eq]
  cases s.dedup.isSeen (base + i) <;> rfl

theorem buildAckPayload?_eq (h : s.dedup.nextExpected + 257 < 2 ^ 64) (hasGap : Bool) :
    s.buildAckPayload? hasGap = some (s.buildAckPayload hasGap) := by
  cases hasGap with
  | false => rfl
  | true =>
    have hbitmap : s.sackBitmap? (s.dedup.nextExpected - 1 + 1) =
        some (s.sackBitmap (s.dedup.nextExpected - 1 + 1)) := sackBitmap?_eq (by omega)
    simp [buildAckPayload?, buildAckPayload, Checked.add_eq_some
      (show s.dedup.nextExpected - 1 + 1 < 2 ^ 64 by omega), hbitmap]

theorem processAckForFastRetransmit?_eq (h : s.Calm) (ack : AckPayload) :
    s.processAckForFastRetransmit? ack = some (s.processAckForFastRetransmit ack) := by
  unfold processAckForFastRetransmit? processAckForFastRetransmit
  by_cases hnew : ack.ackSeq.toNat > s.lastAckSeq
  · simp [hnew]
  · have hseq : ack.ackSeq.toNat + 1 < 2 ^ 64 := by
      have := h.lastAckSeq
      omega
    simp only [hnew, if_false, Checked.addU32_one h.dupAckCount, Checked.add_eq_some hseq]
    dsimp only [Option.bind_eq_bind, Option.bind_some]
    split_ifs <;> rfl

/-- The duplicate count records the number of the ACK first, so that `process_ack`
never finds it new and the congestion window is not touched. -/
theorem ackSeq_le_lastAckSeq (ack : AckPayload) :
    ack.ackSeq.toNat ≤ (s.processAckForFastRetransmit ack).1.lastAckSeq := by
  unfold processAckForFastRetransmit
  dsimp only
  split_ifs with hnew
  · exact le_rfl
  · exact Nat.not_lt.mp hnew
  · exact Nat.not_lt.mp hnew

theorem processAck?_eq {ack : AckPayload} (h : ack.ackSeq.toNat ≤ s.lastAckSeq)
    (now : Instant) : s.processAck? now ack = some (s.processAck now ack) := by
  simp [processAck?, processAck, Nat.not_lt.mpr h]

@[simp] theorem receiveFrame_readCache (seq : ℕ) :
    (s.receiveFrame seq).1.readCache = s.readCache := by
  obtain ⟨dedup, heq⟩ := s.receiveFrame_eq seq
  rw [heq]

@[simp] theorem processAckForFastRetransmit_readCache (ack : AckPayload) :
    (s.processAckForFastRetransmit ack).1.readCache = s.readCache := by
  obtain ⟨lastAckSeq, dupAckCount, heq⟩ := s.processAckForFastRetransmit_eq ack
  rw [heq]

@[simp] theorem processAck_readCache (now : Instant) (ack : AckPayload) :
    (s.processAck now ack).1.readCache = s.readCache := by
  rcases s.processAck_cases now ack with ⟨-, heq⟩ | ⟨-, srtt, rttvar, rto, heq⟩
  · rw [heq]
    rfl
  · rw [heq]
    rfl

end ReliableSession

/-! ## The manager -/

/-- The encoder sums up the length of the frame first. -/
def encodeFrame? (header : FrameHeader) (ext : Option DataExtHeader) (payload : List UInt8) :
    Option (List UInt8) := do
  let _ ← Checked.add 64 (frameHeaderSize + (ext.elim 0 DataExtHeader.size)) payload.length
  return encodeFrame header ext payload

def buildAckFrame? (localNode remoteNode : UInt16) (ack : AckPayload) : Option (List UInt8) :=
  encodeFrame?
    { magic := magic, version := version, frameType := .ack
      flags := if ack.sackBitmap.isSome then FrameFlags.hasSack else FrameFlags.empty
      srcNode := localNode, dstNode := remoteNode, reserved := 0, streamSeq := 0
      payloadLen := 0, headerCrc := 0 }
    none (encodeAckPayload ack)

/-- Headers are short: only a payload of nearly `2^64` bytes is too long. -/
theorem encodeFrame?_eq (header : FrameHeader) (ext : Option DataExtHeader)
    {payload : List UInt8} (h : payload.length ≤ 2 ^ 32) :
    encodeFrame? header ext payload = some (encodeFrame header ext payload) := by
  have hsize : ext.elim 0 DataExtHeader.size ≤ 56 := by
    cases ext with
    | none => exact Nat.zero_le _
    | some ext =>
      change (if ext.imm.isSome then 56 else 48) ≤ 56
      split_ifs <;> omega
  have hheader : frameHeaderSize = 32 := rfl
  rw [encodeFrame?, Checked.add_eq_some (by omega)]
  rfl

theorem buildAckFrame?_eq (localNode remoteNode : UInt16) (ack : AckPayload) :
    buildAckFrame? localNode remoteNode ack = some (buildAckFrame localNode remoteNode ack) := by
  apply encodeFrame?_eq
  cases hbitmap : ack.sackBitmap <;> simp [encodeAckPayload, hbitmap]

namespace TransportManager

variable (m : TransportManager)

def acknowledge? (key : SessionKey) (remoteNode : UInt16) (session : ReliableSession)
    (action : ReceiveAction) : Option TransportManager :=
  if action = .beyondWindow then some (m.setSession key session)
  else if action = .duplicate ∨ action = .outOfOrder ∨ session.shouldSendAck = true then do
    let (session, ack) ← session.buildAckPayload? (action == .outOfOrder)
    let frame ← buildAckFrame? m.localNodeId remoteNode ack
    return (m.setSession key session).sendFrameToPeer session.key.remoteNode frame
  else some (m.setSession key session)

def handleDataFrame? (header : FrameHeader) (ext : DataExtHeader) (payload : List UInt8) :
    Option (TransportManager × List InboundFrame) :=
  let remoteNode := header.srcNode
  let seq := header.streamSeq.toNat
  let frame : InboundFrame := ⟨header, ext, payload, seq⟩
  if seq = 0 then some (m, [frame])
  else
    let key := m.currentKey remoteNode
    match m.sessions.lookup key with
    | none => some (m, [frame])
    | some session =>
      if session.state ≠ .active then some (m, [])
      else do
        let (session, action) ← session.receiveFrame? seq
        return (← m.acknowledge? key remoteNode session action, handedUp action frame)

def handleAckFrame? (now : Instant) (header : FrameHeader) (payload : List UInt8) :
    Option TransportManager :=
  match decodeAckPayload payload (header.flags.contains FrameFlags.hasSack) with
  | .error _ => some m
  | .ok ack =>
    let key := m.currentKey header.srcNode
    match m.sessions.lookup key with
    | none => some m
    | some session => do
      let (session, retransmitSeq) ← session.processAckForFastRetransmit? ack
      match retransmitSeq.bind session.getRetransmitEntry with
      | some entry =>
        -- the session is given back for the send, then looked up again and unwrapped
        let m := (m.setSession key session).sendFrameToPeer session.key.remoteNode entry.frame
        let session ← m.sessions.lookup key
        return m.setSession key (← session.processAck? now ack).1
      | none => return m.setSession key (← session.processAck? now ack).1

def handleIncoming? (now : Instant) (raw : List UInt8) :
    Option (TransportManager × List InboundFrame) := do
  match ← decodeFrameIndexed raw with
  | .error _ => return (m, [])
  | .ok (header, ext, payload) =>
    match header.frameType with
    | .data =>
      match ext with
      | some ext => m.handleDataFrame? header ext payload
      | none => return (m, [])
    | .ack => return (← m.handleAckFrame? now header payload, [])
    | .credit => return (m.handleCreditFrame header payload, [])

def readCacheGet? (now : Instant) (remoteNode : UInt16) (key : CacheKey) :
    Option (TransportManager × Option (List UInt8)) :=
  match m.findSession remoteNode with
  | some (sessionKey, session) => do
    let (cache, response) ← session.readCache.get? now key
    return (m.setSession sessionKey { session with readCache := cache }, response)
  | none => some (m, none)

def readCacheInsert? (now : Instant) (remoteNode : UInt16) (key : CacheKey)
    (response : List UInt8) : Option TransportManager :=
  match m.findSession remoteNode with
  | some (sessionKey, session) => do
    let readCache ← session.readCache.insert? now key response
    return m.setSession sessionKey { session with readCache }
  | none => some m

/-- All sessions have room for one more frame. -/
def Calm : Prop := ∀ key session, m.sessions.lookup key = some session → session.Calm

/-- All response caches have room for one more entry. -/
def CachesBelow : Prop :=
  ∀ key session, m.sessions.lookup key = some session → session.readCache.nextOrder + 1 < 2 ^ 64

variable {m}

theorem Calm.cachesBelow (h : m.Calm) : m.CachesBelow :=
  fun key session hlookup => (h key session hlookup).nextOrder

theorem Calm.createSession {m' : TransportManager} (h : m.Calm) {node : UInt16}
    {epoch credits : UInt32} (hcreate : m.createSession node epoch credits = .ok m') :
    m'.Calm := by
  unfold TransportManager.createSession at hcreate
  dsimp only at hcreate
  split_ifs at hcreate
  cases hcreate
  intro key session hlookup
  by_cases hkey : key = m.keyFor node epoch
  · subst hkey
    rw [AList.lookup_insert] at hlookup
    cases hlookup
    exact ReliableSession.calm_new _ _ _ _ _ _
  · rw [AList.lookup_insert_ne hkey] at hlookup
    exact h key session hlookup

theorem acknowledge?_eq {session : ReliableSession}
    (h : session.dedup.nextExpected + 257 < 2 ^ 64) (key : SessionKey) (node : UInt16)
    (action : ReceiveAction) :
    m.acknowledge? key node session action = some (m.acknowledge key node session action) := by
  unfold acknowledge? acknowledge
  rw [ReliableSession.buildAckPayload?_eq h]
  dsimp only [Option.bind_eq_bind, Option.bind_some]
  rw [buildAckFrame?_eq]
  split_ifs <;> rfl

theorem handleDataFrame?_eq (h : m.Calm) (header : FrameHeader) (ext : DataExtHeader)
    (payload : List UInt8) :
    m.handleDataFrame? header ext payload = some (m.handleDataFrame header ext payload) := by
  unfold handleDataFrame? handleDataFrame
  dsimp only
  split_ifs
  · rfl
  · cases hlookup : m.sessions.lookup (m.currentKey header.srcNode) with
    | none => rfl
    | some session =>
      have hcalm := h _ _ hlookup
      dsimp only
      split_ifs
      · rfl
      · rw [ReliableSession.receiveFrame?_eq hcalm]
        dsimp only [Option.bind_eq_bind, Option.bind_some]
        rw [acknowledge?_eq (hcalm.nextExpected_receiveFrame _)]
        rfl

theorem sendFrameToPeer_setSession (key : SessionKey) (session : ReliableSession)
    (node : UInt16) (data : List UInt8) :
    (m.setSession key session).sendFrameToPeer node data =
      (m.sendFrameToPeer node data).setSession key session := by
  unfold sendFrameToPeer setSession
  dsimp only
  split
  · split <;> rfl
  · rfl

theorem setSession_setSession (key : SessionKey) (s s' : ReliableSession) :
    (m.setSession key s).setSession key s' = m.setSession key s' := by
  simp [setSession, AList.insert_insert]

theorem lookup_setSession_self (key : SessionKey) (session : ReliableSession) :
    (m.setSession key session).sessions.lookup key = some session :=
  AList.lookup_insert m.sessions

/-- The session given back for a fast retransmission is found again. -/
theorem handleAckFrame?_eq (h : m.Calm) (now : Instant) (header : FrameHeader)
    (payload : List UInt8) :
    m.handleAckFrame? now header payload = some (m.handleAckFrame now header payload) := by
  unfold handleAckFrame? handleAckFrame
  cases decodeAckPayload payload (header.flags.contains FrameFlags.hasSack) with
  | error e => rfl
  | ok ack =>
    dsimp only
    cases hlookup : m.sessions.lookup (m.currentKey header.srcNode) with
    | none => rfl
    | some session =>
      have hack := ReliableSession.processAck?_eq (session.ackSeq_le_lastAckSeq ack) now
      dsimp only
      rw [ReliableSession.processAckForFastRetransmit?_eq (h _ _ hlookup)]
      dsimp only [Option.bind_eq_bind, Option.bind_some]
      cases ((session.processAckForFastRetransmit ack).2.bind
          (session.processAckForFastRetransmit ack).1.getRetransmitEntry) with
      | none => simp [hack]
      | some entry =>
        simp [sendFrameToPeer_setSession, setSession_setSession, lookup_setSession_self, hack]

theorem handleIncoming?_eq (h : m.Calm) (now : Instant) (raw : List UInt8) :
    m.handleIncoming? now raw = some (m.handleIncoming now raw) := by
  unfold handleIncoming? handleIncoming
  rw [decodeFrameIndexed_eq]
  dsimp only [Option.bind_eq_bind, Option.bind_some]
  cases decodeFrame raw with
  | error e => rfl
  | ok frame =>
    obtain ⟨header, ext, payload⟩ := frame
    dsimp only
    cases header.frameType with
    | credit => rfl
    | ack => simp [handleAckFrame?_eq h]
    | data =>
      cases ext with
      | none => rfl
      | some ext => exact handleDataFrame?_eq h header ext payload

theorem handedUp_length_le (action : ReceiveAction) (f : InboundFrame) :
    (handedUp action f).length ≤ 1 := by
  unfold handedUp
  split
  · exact le_rfl
  · split_ifs
    · exact le_rfl
    · exact Nat.zero_le _
  · exact Nat.zero_le _
  · exact Nat.zero_le _

theorem handleIncoming_length_le (m : TransportManager) (now : Instant) (raw : List UInt8) :
    (m.handleIncoming now raw).2.length ≤ 1 := by
  unfold TransportManager.handleIncoming
  split
  · exact Nat.zero_le _
  · split
    · split
      · unfold handleDataFrame
        dsimp only
        split_ifs
        · exact le_rfl
        · split
          · exact le_rfl
          · split_ifs
            · exact Nat.zero_le _
            · exact handedUp_length_le _ _
      · exact Nat.zero_le _
    · exact Nat.zero_le _
    · exact Nat.zero_le _

/-! ## The caches while a frame comes in -/

theorem CachesBelow.setSession (h : m.CachesBelow) {session : ReliableSession}
    (hs : session.readCache.nextOrder + 1 < 2 ^ 64) (key : SessionKey) :
    (m.setSession key session).CachesBelow := by
  intro key' session' hlookup
  by_cases hkey : key' = key
  · subst hkey
    rw [lookup_setSession_self, Option.some.injEq] at hlookup
    rwa [← hlookup]
  · exact h key' session' ((AList.lookup_insert_ne hkey).symm.trans hlookup)

theorem touches_handleIncoming_readCache (m : TransportManager) (now : Instant)
    (raw : List UInt8) :
    m.Touches (fun s s' => s'.readCache = s.readCache) (m.handleIncoming now raw).1 := by
  apply (Touches.handleIncoming m now raw).mono
  intro s s' hreceived
  cases hreceived with
  | taken seq => simp
  | acknowledged seq hasGap => exact s.receiveFrame_readCache seq
  | acked now ack => simp
  | credited credits => rfl

theorem CachesBelow.handleIncoming (h : m.CachesBelow) (now : Instant) (raw : List UInt8) :
    (m.handleIncoming now raw).1.CachesBelow := by
  intro key session' hlookup
  obtain ⟨session, hbefore, hcache⟩ :=
    (m.touches_handleIncoming_readCache now raw).before (fun _ => rfl) hlookup
  rw [hcache]
  exact h key session hbefore

theorem readCacheGet?_eq (h : m.CachesBelow) (now : Instant) (node : UInt16) (key : CacheKey) :
    m.readCacheGet? now node key = some (m.readCacheGet now node key) := by
  unfold readCacheGet? readCacheGet
  cases hfind : m.findSession node with
  | none => rfl
  | some found =>
    obtain ⟨sessionKey, session⟩ := found
    have hroom := h _ _ (findSession_eq_some hfind).1
    simp [ReadResponseCache.get?_eq _ now key hroom]

theorem readCacheInsert?_eq (h : m.CachesBelow) (now : Instant) (node : UInt16)
    (key : CacheKey) (response : List UInt8) :
    m.readCacheInsert? now node key response = some (m.readCacheInsert now node key response) := by
  unfold readCacheInsert? readCacheInsert modifySession
  cases hfind : m.findSession node with
  | none => rfl
  | some found =>
    obtain ⟨sessionKey, session⟩ := found
    have hroom := h _ _ (findSession_eq_some hfind).1
    simp [ReadResponseCache.insert?_eq _ now key response hroom]

theorem CachesBelow.readCacheGet_of_none (h : m.CachesBelow) {now : Instant} {node : UInt16}
    {key : CacheKey} (hnone : (m.readCacheGet now node key).2 = none) :
    (m.readCacheGet now node key).1.CachesBelow := by
  unfold TransportManager.readCacheGet at hnone ⊢
  cases hfind : m.findSession node with
  | none => exact h
  | some found =>
    obtain ⟨sessionKey, session⟩ := found
    simp only [hfind] at hnone ⊢
    apply h.setSession
    rw [session.readCache.nextOrder_get_of_none hnone]
    exact h _ _ (findSession_eq_some hfind).1

end TransportManager
end UniBus.Transport
