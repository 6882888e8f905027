import Tigerso.BodyAccumulation
import Tigerso.HttpMessageObject

/-!
# http/HttpMessage: the parsing of a message without a file

A body that has no file is kept in the ring. When a piece of it neither fits nor goes straight to
a file, the call that was to store it does not return.
-/

open SystemCalls BodyAccumulation

namespace HttpBodyFile

/-- The body has no file. -/
structure InRing (b : HttpBodyFile) : Prop where
  sane : Sane b
  unnamed : b.file.named = false

/-- A piece of a body that fits into the ring, or is not meant for it. -/
def Room (b : HttpBodyFile) (piece : Bytes) : Prop :=
  piece.length ≤ b.ringbuf.space ∨ ringbufferDefaultLength ≤ piece.length

section
variable {b b' : HttpBodyFile} {results rest : List WriteResult} {piece : Bytes} {ret : Int}

theorem InRing.of_same (inRing : InRing b) (ring : b'.ringbuf = b.ringbuf)
    (named : b'.file.named = b.file.named) : InRing b' := by
  constructor
  · constructor
    · rw [ring]
      exact inRing.sane.valid
    · rw [ring]
      exact inRing.sane.before
  · rw [named]
    exact inRing.unnamed

theorem InRing.reset (inRing : InRing b) : InRing b.reset :=
  ⟨reset_sane inRing.sane.valid b.file.clear, rfl⟩

theorem construct_inRing (bufsize : Nat) (garbage : Nat → Byte) :
    InRing (.construct bufsize garbage) := by
  have valid : (RingBuffer.construct bufsize garbage).Valid :=
    RingBuffer.construct_valid bufsize garbage
  exact ⟨⟨valid, Nat.lt_of_le_of_lt (Nat.zero_le _) valid.room⟩, rfl⟩

/-- A flush changes nothing; it asks for one write at most. -/
theorem InRing.flushFile (inRing : InRing b) (r : WriteResult) (results : List WriteResult) :
    ∃ rest, b.flushFile (r :: results) = some (b, rest) ∧ results.length ≤ rest.length := by
  by_cases empty : b.ringbuf.content = []
  · exact ⟨r :: results, flushFile_empty inRing.sane empty _, Nat.le_succ _⟩
  · exact ⟨results, flushFile_unnamed inRing.sane inRing.unnamed empty r results, Nat.le_refl _⟩

theorem InRing.flushed (inRing : InRing b) (done : b.flushFile results = some (b', rest)) :
    InRing b' := by
  have flushable : Flushable b := fun named => absurd (inRing.unnamed.symm.trans named) nofun
  have flushed := flushFile_flushed inRing.sane flushable done
  exact ⟨flushed.sane, flushed.named.trans inRing.unnamed⟩

theorem InRing.settles (inRing : InRing b) (room : Room b piece) : Settles b piece results where
  flushable _ named := absurd (inRing.unnamed.symm.trans named) nofun
  taken spills longer := by
    obtain fits | long := room
    · exact absurd longer (Nat.not_lt.mpr fits)
    · exact absurd spills.2 (Nat.not_lt.mpr long)
  clear _ named := absurd (inRing.unnamed.symm.trans named) nofun

theorem InRing.room_of_written (inRing : InRing b)
    (done : b.writeIn piece results = some (ret, b', rest)) : Room b piece := by
  by_contra full
  rw [Room, not_or, Nat.not_le, Nat.not_le] at full
  have spills : Spills b piece := ⟨Nat.le_of_lt full.1, full.2⟩
  rw [writeIn_unnamed inRing.sane inRing.unnamed spills full.1] at done
  cases done

theorem InRing.written (inRing : InRing b)
    (done : b.writeIn piece results = some (ret, b', rest)) : InRing b' := by
  have settles : Settles b piece results := inRing.settles (inRing.room_of_written done)
  obtain kept | ⟨_, b₁, r, flushed, rfl⟩ := writeIn_cases inRing.sane settles done
  · exact ⟨kept.sane, kept.named.trans inRing.unnamed⟩
  · have inRing : InRing b₁ := ⟨flushed.sane, flushed.named.trans inRing.unnamed⟩
    exact inRing.of_same rfl (appendWriteIn_named b₁.file piece r)

/-- A piece for which there is room is stored; two writes are asked for at most. -/
theorem InRing.writeIn (inRing : InRing b) (room : Room b piece) (r r' : WriteResult)
    (results : List WriteResult) : ∃ ret b' rest,
      b.writeIn piece (r :: r' :: results) = some (ret, b', rest) ∧
        results.length ≤ rest.length := by
  obtain fits | direct | spills := regimes b piece
  · obtain ⟨ret, rb, wrote, _⟩ := writeIn_fits (r :: r' :: results) inRing.sane fits
    exact ⟨ret, _, _, wrote, Nat.le_add_right results.length 2⟩
  · obtain ⟨rest, flushed, left⟩ := inRing.flushFile r (r' :: results)
    rw [writeIn_direct direct, flushed, Option.bind_some]
    cases rest with
    | nil => cases left
    | cons next rest => exact ⟨_, _, _, rfl, Nat.le_of_succ_le_succ left⟩
  · have fits : piece.length = b.ringbuf.space := by
      obtain fits | long := room
      · exact Nat.le_antisymm fits spills.1
      · exact absurd spills.2 (Nat.not_lt.mpr long)
    have some_left : piece ≠ [] ∨ b.ringbuf.space = 0 := by
      by_cases empty : piece = []
      · rw [empty] at fits
        exact Or.inr fits.symm
      · exact Or.inl empty
    obtain ⟨rb, appended, written⟩ :=
      spill_pass inRing.sane some_left (results.length + 3) piece.length (r :: r' :: results)
    rw [← fits, List.drop_length, List.length_nil] at written
    have full : InRing { b with ringbuf := rb } :=
      ⟨appended_sane inRing.sane appended, inRing.unnamed⟩
    obtain ⟨rest, flushed, left⟩ := full.flushFile r (r' :: results)
    rw [writeIn_spills spills]
    by_cases isFull : rb.isFull = true
    · rw [if_pos isFull, flushed] at written
      exact ⟨_, _, rest, written, Nat.le_of_succ_le left⟩
    · rw [if_neg isFull] at written
      exact ⟨_, _, _, written, Nat.le_add_right results.length 2⟩

end

end HttpBodyFile

namespace MessageObject
open HttpMessage HttpParser

/-- A callback that finds room for what it stores. -/
def Settled (d : Parsing) : Callback → Prop
  | .onBody at_ => d.parser.tunnelbody = true ∨ fileBigContent ≤ d.message.body.size ∨
      d.message.body.Room at_
  | _ => True

/-- Every callback finds room. -/
def SettledAll (bodyHandle : Bool) : Parsing → List Callback → Prop
  | _, [] => True
  | d, callback :: rest => Settled d callback ∧
      ∀ d', d.deliver bodyHandle callback = some d' → SettledAll bodyHandle d' rest

/-- What the callbacks of one `parse` begin with. -/
def opened (o : MessageObject) (results : List WriteResult) : Parsing :=
  ⟨{ o.parser.initParser with completed := [] }, o.message, o.statusSet, results, 0⟩

section
variable {bodyHandle : Bool} {d d' : Parsing} {callback : Callback} {lib : ParserLib}
  {o o' : MessageObject} {buffer : Bytes} {results : List WriteResult} {answer : ParseAnswer}

theorem lookAtBody_same (p : HttpParser) (m : HttpMessage) (start : StartLine) :
    (p.lookAtBody m start).2.body.ringbuf = m.body.ringbuf ∧
      (p.lookAtBody m start).2.body.file = m.body.file ∧
      (p.tunnelbody = true → (p.lookAtBody m start).1.tunnelbody = true) := by
  rw [lookAtBody]
  dsimp only
  split_ifs
  · exact ⟨rfl, rfl, id⟩
  · exact ⟨rfl, rfl, fun _ => rfl⟩
  · exact ⟨rfl, rfl, id⟩
  · exact ⟨rfl, rfl, fun _ => rfl⟩
  · exact ⟨rfl, rfl, id⟩
  · exact ⟨rfl, rfl, id⟩

theorem headersCompleted_body (m : HttpMessage) (start : StartLine) :
    (headersCompleted m start).body = m.body := by
  rw [headersCompleted]
  cases m.role with
  | httpRoleRequest =>
    dsimp only
    split_ifs
    · rfl
    · rfl
  | httpRoleResponse =>
    dsimp only
    rw [setStatuscode]
    split_ifs
    · rfl
    · rfl
    · rfl
    · rfl

/-- The end of a header leaves the bytes of the body alone. -/
theorem onHeadersComplete_same (p : HttpParser) (m : HttpMessage) (start : StartLine) :
    (p.onHeadersComplete m start).2.body.ringbuf = m.body.ringbuf ∧
      (p.onHeadersComplete m start).2.body.file = m.body.file ∧
      (p.tunnelbody = true → (p.onHeadersComplete m start).1.tunnelbody = true) := by
  rw [onHeadersComplete]
  obtain ⟨ring, file, tunnel⟩ := lookAtBody_same
    (if (p.setParseState .parseHeaderComplete).headerCompletedHandle then
      { p.setParseState .parseHeaderComplete with
        completed := (p.setParseState .parseHeaderComplete).completed ++
          [headersCompleted m start] }
    else p.setParseState .parseHeaderComplete) (headersCompleted m start) start
  refine ⟨ring.trans ?_, file.trans ?_, fun before => tunnel ?_⟩
  · rw [headersCompleted_body]
  · rw [headersCompleted_body]
  · split_ifs
    · exact before
    · exact before

/-- A callback without a body returns, and asks for no write. -/
theorem deliver_plain (plain : ∀ at_, callback ≠ .onBody at_)
    (other : callback ≠ .onMessageComplete) : ∃ d', d.deliver bodyHandle callback = some d' ∧
      d'.message.body.ringbuf = d.message.body.ringbuf ∧
      d'.message.body.file = d.message.body.file ∧ d'.results = d.results ∧
      (d.parser.tunnelbody = true → d'.parser.tunnelbody = true) := by
  cases callback with
  | onBody at_ => exact absurd rfl (plain at_)
  | onMessageComplete => exact absurd rfl other
  | onHeadersComplete start =>
    obtain ⟨ring, file, tunnel⟩ := onHeadersComplete_same d.parser d.message start
    exact ⟨_, rfl, ring, file, rfl, tunnel⟩
  | onUrl at_ =>
    refine ⟨_, rfl, ?_, ?_, rfl, id⟩
    · dsimp only [HttpParser.onUrl]
      cases d.message.role <;> rfl
    · dsimp only [HttpParser.onUrl]
      cases d.message.role <;> rfl
  | onStatus at_ =>
    refine ⟨_, rfl, ?_, ?_, rfl, id⟩
    · dsimp only [HttpParser.onStatus]
      cases d.message.role <;> rfl
    · dsimp only [HttpParser.onStatus]
      cases d.message.role <;> rfl
  | onMessageBegin => exact ⟨_, rfl, rfl, rfl, rfl, id⟩
  | onHeaderField at_ => exact ⟨_, rfl, rfl, rfl, rfl, id⟩
  | onHeaderValue at_ => exact ⟨_, rfl, rfl, rfl, rfl, id⟩

/-- The parser that decides where a piece of a body goes. -/
theorem deliver_body (d : Parsing) (at_ : Bytes) : ∃ parser : HttpParser,
    (parser.tunnelbody = true ↔
      d.parser.tunnelbody = true ∨ fileBigContent ≤ d.message.body.size) ∧
    d.deliver bodyHandle (.onBody at_) = if parser.tunnelbody then
      some { d with parser := parser.setParseState .parseBodyNeedMoreData }
    else (d.message.body.writeIn at_ d.results).map fun p => { d with
      parser := parser.setParseState .parseBodyNeedMoreData
      message := { d.message with body := p.2.1 }
      results := p.2.2 } := by
  refine ⟨if !d.parser.tunnelbody ∧ fileBigContent ≤ d.message.body.size then
      d.parser.labelTunnelBody else d.parser, ?_, ?_⟩
  · cases before : d.parser.tunnelbody with
    | true => simp [before]
    | false =>
      by_cases big : fileBigContent ≤ d.message.body.size
      · simp [big, labelTunnelBody]
      · simp [before, big]
  · rw [Parsing.deliver]
    dsimp only
    split_ifs with _ kept
    · rfl
    · exact absurd rfl kept
    · rfl
    · exact (Option.map_eq_bind ..).symm

/-- A body that lies in the ring stays there. -/
theorem deliver_inRing (inRing : d.message.body.InRing)
    (done : d.deliver bodyHandle callback = some d') : d'.message.body.InRing := by
  by_cases plain : ∀ at_, callback ≠ .onBody at_
  · by_cases other : callback = .onMessageComplete
    · subst other
      obtain ⟨⟨body, results⟩, flushed, done⟩ := Option.bind_eq_some_iff.mp done
      obtain rfl := Option.some.inj done
      exact (inRing.flushed flushed).of_same rfl rfl
    · obtain ⟨_, same, ring, file, _⟩ := @deliver_plain bodyHandle d callback plain other
      rw [same] at done
      obtain rfl := Option.some.inj done
      exact inRing.of_same ring (congrArg _ file)
  · obtain ⟨at_, rfl⟩ : ∃ at_, callback = .onBody at_ := by simpa using plain
    obtain ⟨parser, _, same⟩ := @deliver_body bodyHandle d at_
    rw [same] at done
    split_ifs at done
    · obtain rfl := Option.some.inj done
      exact inRing
    · obtain ⟨⟨ret, body, rest⟩, written, rfl⟩ := Option.map_eq_some_iff.mp done
      exact inRing.written written

/-- A callback that finds room returns, when two more writes are answered. -/
theorem deliver_returns (inRing : d.message.body.InRing) (settled : Settled d callback)
    (enough : 2 ≤ d.results.length) : ∃ d', d.deliver bodyHandle callback = some d' ∧
      d.results.length ≤ d'.results.length + 2 := by
  obtain ⟨r, r', results, answers⟩ : ∃ r r' results, d.results = r :: r' :: results := by
    match d.results, enough with
    | r :: r' :: results, _ => exact ⟨r, r', results, rfl⟩
  by_cases plain : ∀ at_, callback ≠ .onBody at_
  · by_cases other : callback = .onMessageComplete
    · subst other
      obtain ⟨rest, flushed, left⟩ := inRing.flushFile r (r' :: results)
      rw [← answers] at flushed
      refine ⟨_, by rw [Parsing.deliver, flushed]; rfl, ?_⟩
      rw [answers]
      exact Nat.add_le_add_right (Nat.le_of_succ_le left) 2
    · obtain ⟨d', same, _, _, results, _⟩ := @deliver_plain bodyHandle d callback plain other
      exact ⟨d', same, by rw [results]; exact Nat.le_add_right _ 2⟩
  · obtain ⟨at_, rfl⟩ : ∃ at_, callback = .onBody at_ := by simpa using plain
    obtain ⟨parser, tunnels, same⟩ := @deliver_body bodyHandle d at_
    rw [same]
    split_ifs with tunnel
    · exact ⟨_, rfl, Nat.le_add_right _ 2⟩
    · have room : d.message.body.Room at_ := by
        rw [tunnels, not_or] at tunnel
        exact (settled.resolve_left tunnel.1).resolve_left tunnel.2
      obtain ⟨ret, body, rest, written, left⟩ := inRing.writeIn room r r' results
      rw [answers, written]
      exact ⟨_, rfl, Nat.add_le_add_right left 2⟩

/-- A tunnelled body stays so. -/
theorem deliver_tunnelled (tunnel : d.parser.tunnelbody = true)
    (done : d.deliver bodyHandle callback = some d') : d'.parser.tunnelbody = true := by
  by_cases plain : ∀ at_, callback ≠ .onBody at_
  · by_cases other : callback = .onMessageComplete
    · subst other
      obtain ⟨_, _, done⟩ := Option.bind_eq_some_iff.mp done
      obtain rfl := Option.some.inj done
      exact tunnel
    · obtain ⟨_, same, _, _, _, stays⟩ := @deliver_plain bodyHandle d callback plain other
      rw [same] at done
      obtain rfl := Option.some.inj done
      exact stays tunnel
  · obtain ⟨at_, rfl⟩ : ∃ at_, callback = .onBody at_ := by simpa using plain
    obtain ⟨parser, tunnels, same⟩ := @deliver_body bodyHandle d at_
    have here : parser.tunnelbody = true := tunnels.mpr (Or.inl tunnel)
    rw [same, if_pos here] at done
    obtain rfl := Option.some.inj done
    exact here

theorem settledAll_of_tunnelled (callbacks : List Callback)
    (tunnel : d.parser.tunnelbody = true) : SettledAll bodyHandle d callbacks := by
  induction callbacks generalizing d with
  | nil => trivial
  | cons callback rest ih =>
    refine ⟨?_, fun d' done => ih (deliver_tunnelled tunnel done)⟩
    cases callback with
    | onBody at_ => exact Or.inl tunnel
    | _ => trivial

theorem deliverAll_returns (callbacks : List Callback) (inRing : d.message.body.InRing)
    (settled : SettledAll bodyHandle d callbacks)
    (enough : 2 * callbacks.length ≤ d.results.length) :
    ∃ d', d.deliverAll bodyHandle callbacks = some d' := by
  induction callbacks generalizing d with
  | nil => exact ⟨d, rfl⟩
  | cons callback rest ih =>
    rw [List.length_cons] at enough
    obtain ⟨next, first, left⟩ := @deliver_returns bodyHandle d callback inRing settled.1 (by omega)
    obtain ⟨d', later⟩ := ih (deliver_inRing inRing first) (settled.2 next first) (by omega)
    exact ⟨d', by rw [Parsing.deliverAll, first]; exact later⟩

theorem parse_inRing (inRing : o.message.body.InRing)
    (parsed : o.parse lib buffer results = some (answer, o')) : o'.message.body.InRing := by
  rw [MessageObject.parse] at parsed
  split_ifs at parsed
  · obtain ⟨_, rfl⟩ := Prod.mk.inj (Option.some.inj parsed)
    exact inRing
  · obtain ⟨d, delivered, parsed⟩ := Option.bind_eq_some_iff.mp parsed
    obtain ⟨_, rfl⟩ := Prod.mk.inj (Option.some.inj parsed)
    exact Parsing.deliverAll_keeps (fun d => d.message.body.InRing)
      (fun _ _ _ _ inRing done => deliver_inRing inRing done) inRing delivered

/-- `parse` returns when every callback finds room and the writes that it asks for are answered. -/
theorem parse_returns (inRing : o.message.body.InRing)
    (settled : SettledAll o.bodyCompletedHandle (o.opened results)
      (lib o.message.role (o.feed buffer)).callbacks)
    (enough : 2 * (lib o.message.role (o.feed buffer)).callbacks.length ≤ results.length) :
    ∃ answer, o.parse lib buffer results = some answer := by
  rw [MessageObject.parse]
  split_ifs
  · exact ⟨_, rfl⟩
  · obtain ⟨d, delivered⟩ := @deliverAll_returns o.bodyCompletedHandle (o.opened results) _ inRing
      settled enough
    exact ⟨_, Option.bind_eq_some_iff.mpr ⟨d, delivered, rfl⟩⟩

/-- A piece that neither fits into the ring nor is as long as the ring is never stored. -/
theorem parse_spins (inRing : o.message.body.InRing) (filled : buffer ≠ [])
    (begun : o.parser.state ≠ .parseUninit) (untunnelled : o.parser.tunnelbody = false)
    (small : o.message.body.size < fileBigContent) (full : ¬ o.message.body.Room buffer)
    (reports : (lib o.message.role (o.feed buffer)).callbacks = [.onBody buffer])
    (results : List WriteResult) : o.parse lib buffer results = none := by
  rw [MessageObject.parse, if_neg fun empty => filled (List.length_eq_zero_iff.mp empty)]
  dsimp only
  have plain : o.parser.initParser = o.parser := if_neg begun
  rw [reports, plain]
  obtain ⟨parser, tunnels, same⟩ := @deliver_body o.bodyCompletedHandle
    ⟨{ o.parser with completed := [] }, o.message, o.statusSet, results, 0⟩ buffer
  have kept : ¬ parser.tunnelbody = true := by
    rw [tunnels, not_or]
    exact ⟨Bool.eq_false_iff.mp untunnelled, Nat.not_le.mpr small⟩
  have spins : o.message.body.writeIn buffer results = none := by
    by_contra some_
    obtain ⟨⟨ret, body, rest⟩, written⟩ := Option.ne_none_iff_exists'.mp some_
    exact full (inRing.room_of_written written)
  rw [if_neg kept, spins] at same
  rw [Parsing.deliverAll, same]
  rfl

end

end MessageObject
