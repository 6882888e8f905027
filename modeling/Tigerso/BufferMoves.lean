import Tigerso.BufferBounds

/-!
# net/Buffer: the ranges that `align` copies

A copy is written down as the buffer that it is made in. `memcpy` asks that its ranges be disjoint.
-/

open SystemCalls ByteMemory SocketUtil GuardedRuns

namespace Buffer

/-- The copy of `align`, unless it returns in front of it. -/
def copied (b : Buffer) : List Buffer := if b.prefreeBytes < gainGap then [] else [b]

/-- No offset is in `[readIdx_, writeIdx_)` and in the range of the same length at `prefix_`. -/
def Disjoint (b : Buffer) : Prop :=
  ∀ offset, ¬ (b.readIdx ≤ offset ∧ offset < b.writeIdx ∧
    prefix_ ≤ offset ∧ offset < prefix_ + b.readableBytes)

/-- The ranges are disjoint, and the readable bytes are preserved. -/
def Preserved (b : Buffer) : Prop :=
  b.Disjoint ∧ ∃ b', b.align = some b' ∧ b'.content = b.content

def recvCopies (isSSL : Bool) (realloc : Realloc) (errno : Nat) :
    List Bytes → Nat → Buffer → List Buffer
  | [], _, _ => []
  | chunk :: chunks, extend, b =>
    match recv isSSL errno b.writeableBytes (.bytes chunk) with
    | (_, []) => []
    | (_, data) => (b.fill data).elim [] fun filled =>
      (if filled.writeableBytes < pregap then filled.copied else []) ++
        (filled.recvMore realloc extend).elim [] fun next =>
          recvCopies isSSL realloc errno chunks next.2 next.1

def copies (b : Buffer) : BufferCall → List Buffer
  | .addData data _ => if data.length = 0 then [] else b.copied
  | .recvFromSocket isSSL realloc errno chunks _ =>
    recvCopies isSSL realloc errno chunks gainGap b
  | .sendToSocket isSSL counts errno _ =>
    let b := (sendWhile isSSL errno counts 0 b).2.2
    if b.writeIdx = b.readIdx then []
    else if b.writeIdx < b.readIdx + gainGap then b.copied else []
  | .attachHttpMessage (some header) _ => if header.length = 0 then [] else b.forMessage.copied
  | .attachHttpMessage none _ | .removeData _ | .clear | .toString => []

/-- How many bytes of the chunks fill `free` bytes up to the last few, if they do. -/
def filledBy : Nat → List Nat → Option Nat
  | _, [] => none
  | free, size :: sizes =>
    if min size free = 0 then none
    else if free - min size free < pregap then some (min size free)
    else (filledBy (free - min size free) sizes).map (min size free + ·)

/-- When a gap was taken since the last copy, no more bytes are left, with `more` of them, than
were taken. -/
def Taken (b : Buffer) (more : Nat) : Prop :=
  gainGap ≤ b.readIdx - prefix_ → b.writeIdx - b.readIdx + more ≤ b.readIdx - prefix_

/-- Where data is added, or received up to the end of the allocation, there is room in front for
the unread bytes. -/
def Spaced (b : Buffer) : BufferCall → Prop
  | .addData data _ => data ≠ [] → b.Taken 0
  | .recvFromSocket _ _ _ chunks _ =>
    ∀ more, filledBy (b.bufsize - b.writeIdx) (chunks.map List.length) = some more → b.Taken more
  | _ => True

section
variable {b b' : Buffer} {realloc : Realloc} {isSSL : Bool} {errno extend len : Nat}
  {ending : RecvEnd} {chunk data : Bytes} {chunks : List Bytes}

theorem Within.disjoint_iff (within : Within b) :
    b.Disjoint ↔ b.writeIdx - b.readIdx ≤ b.readIdx - prefix_ := by
  have readable := within.readable
  have length := content_length b
  obtain ⟨behind, order, _, _⟩ := within
  constructor
  · intro apart
    by_contra close
    exact apart b.readIdx ⟨Nat.le_refl _, by omega, behind, by omega⟩
  · rintro room offset ⟨source, _, _, target⟩
    omega

/-- A copy between disjoint ranges preserves the bytes. -/
theorem Within.preserved_iff (within : Within b) :
    b.Preserved ↔ b.writeIdx - b.readIdx ≤ b.readIdx - prefix_ := by
  rw [Preserved, within.disjoint_iff]
  refine ⟨And.left, fun room => ⟨room, ?_⟩⟩
  have readable := within.readable
  have length := content_length b
  have behind := within.behind
  have inside := within.inside
  have order := within.order
  obtain ⟨b', aligned⟩ : ∃ b', b.align = some b' := by
    have fits : prefix_ + (window b.buffer b.readIdx b.content.length).length ≤ b.bufsize := by
      rw [window_length]
      omega
    rw [Buffer.align, within.prefree, readable]
    split_ifs with near apart
    · exact ⟨b, rfl⟩
    · rw [copyIn, if_pos fits]
      exact ⟨_, rfl⟩
    · omega
  exact ⟨b', aligned, (within.align aligned).1.content⟩

/-- The copy of an `align` is fine when there is room. -/
theorem Within.copied_iff (within : Within b) :
    (∀ m ∈ b.copied, m.Preserved) ↔ b.Taken 0 := by
  rw [copied, Taken, within.prefree]
  split_ifs with near
  · exact ⟨fun _ far => absurd near (Nat.not_lt.mpr far), fun _ => nofun⟩
  · rw [List.forall_mem_singleton, within.preserved_iff]
    exact ⟨fun room _ => room, fun room => room (Nat.not_lt.mp near)⟩

theorem recvCopies_nothing (nothing : chunk.take b.writeableBytes = []) :
    recvCopies isSSL realloc errno (chunk :: chunks) extend b = [] := by
  rw [recvCopies, recv_nothing nothing]

theorem recvCopies_some (some_ : chunk.take b.writeableBytes ≠ []) :
    recvCopies isSSL realloc errno (chunk :: chunks) extend b =
      (b.fill (chunk.take b.writeableBytes)).elim [] fun filled =>
        (if filled.writeableBytes < pregap then filled.copied else []) ++
          (filled.recvMore realloc extend).elim [] fun next =>
            recvCopies isSSL realloc errno chunks next.2 next.1 := by
  rw [recvCopies, recv_bytes some_]
  obtain ⟨byte, rest, eq⟩ := List.exists_cons_of_ne_nil some_
  rw [eq]

/-- Behind `makeSpace` fewer bytes than the gap were taken. -/
theorem Within.makeSpace_near (within : Within b)
    (made : b.makeSpace len (b.asked realloc len) = some b') :
    b'.readIdx - prefix_ < gainGap := by
  rw [Buffer.makeSpace] at made
  obtain ⟨b₁, aligned, made⟩ := Option.bind_eq_some_iff.mp made
  have near : b₁.readIdx - prefix_ < gainGap := by
    rw [Buffer.align, within.prefree] at aligned
    split_ifs at aligned with near apart
    · cases aligned
      exact near
    · obtain ⟨_, _, aligned⟩ := Option.bind_eq_some_iff.mp aligned
      cases aligned
      exact (by decide : prefix_ - prefix_ < gainGap)
  split_ifs at made with enough granted
  · cases made
    exact near
  · obtain ⟨_, _, made⟩ := Option.bind_eq_some_iff.mp made
    cases made
    exact near
  · obtain ⟨_, _, made⟩ := Option.bind_eq_some_iff.mp made
    cases made
    exact near

/-- What the test behind a receive leaves. -/
theorem Within.recvMore_kept (within : Within b) {next : Buffer × Nat}
    (more : b.recvMore realloc extend = some next) :
    Within next.1 ∧ (b.readIdx - prefix_ < gainGap → next.1.readIdx - prefix_ < gainGap) := by
  rw [Buffer.recvMore] at more
  split_ifs at more
  · obtain ⟨b', made, rfl⟩ := Option.map_eq_some_iff.mp more
    exact ⟨(within.makeSpace_kept made).within, fun _ => within.makeSpace_near made⟩
  · cases more
    exact ⟨within, id⟩

/-- A receive fits. -/
theorem Within.receive (within : Within b) (chunk : Bytes) :
    ∃ filled, b.fill (chunk.take b.writeableBytes) = some filled ∧ Within filled ∧
      filled.readIdx = b.readIdx ∧ filled.bufsize = b.bufsize ∧
      filled.writeIdx = b.writeIdx + min chunk.length (b.bufsize - b.writeIdx) := by
  have free := within.writeable
  have inside := within.inside
  have fits : b.writeIdx + (chunk.take b.writeableBytes).length ≤ b.bufsize := by
    rw [List.length_take]
    omega
  obtain ⟨filled, fill, within', _, index, size, _⟩ := within.fill _ fits
  refine ⟨filled, fill, within', ?_, size, ?_⟩
  · rw [Buffer.fill] at fill
    obtain ⟨copied, copy, rfl⟩ := Option.map_eq_some_iff.mp fill
    rw [copyIn, if_pos fits] at copy
    cases copy
    rfl
  · rw [index, List.length_take, free, Nat.min_comm]

/-- Once fewer bytes than the gap were taken nothing is copied any more. -/
theorem recvCopies_near (within : Within b) (near : b.readIdx - prefix_ < gainGap) :
    recvCopies isSSL realloc errno chunks extend b = [] := by
  induction chunks generalizing b extend with
  | nil => rfl
  | cons chunk chunks ih =>
    by_cases nothing : chunk.take b.writeableBytes = []
    · exact recvCopies_nothing nothing
    · obtain ⟨filled, fill, within', read, _, _⟩ := within.receive chunk
      rw [← read] at near
      have none_ : filled.copied = [] := by rw [copied, within'.prefree, if_pos near]
      rw [recvCopies_some nothing, fill, Option.elim_some, none_, ite_self, List.nil_append]
      cases more : filled.recvMore realloc extend with
      | none => rfl
      | some next =>
        obtain ⟨within'', near''⟩ := within'.recvMore_kept more
        exact ih within'' (near'' near)

/-- Only the first `makeSpace` of the loop can copy; the chunks have filled the allocation then. -/
theorem recvCopies_iff (within : Within b) :
    (∀ m ∈ recvCopies isSSL realloc errno chunks extend b, m.Preserved) ↔
      ∀ more, filledBy (b.bufsize - b.writeIdx) (chunks.map List.length) = some more →
        b.Taken more := by
  induction chunks generalizing b extend with
  | nil => exact ⟨fun _ => nofun, fun _ => nofun⟩
  | cons chunk chunks ih =>
    obtain ⟨filled, fill, within', read, size, index⟩ := within.receive chunk
    have free := within.writeable
    have free' := within'.writeable
    obtain ⟨got, same⟩ : ∃ got, got = min chunk.length (b.bufsize - b.writeIdx) := ⟨_, rfl⟩
    rw [List.map_cons, filledBy, ← same]
    rw [← same] at index
    by_cases nothing : chunk.take b.writeableBytes = []
    · have zero : got = 0 := by
        rw [same, Nat.min_comm, ← free, ← List.length_take, nothing]
        rfl
      rw [recvCopies_nothing nothing, if_pos zero]
      exact ⟨fun _ => nofun, fun _ => nofun⟩
    · have some_ : got ≠ 0 := by
        rw [same, Nat.min_comm, ← free, ← List.length_take]
        exact fun none => nothing (List.length_eq_zero_iff.mp none)
      have left : filled.writeableBytes = b.bufsize - b.writeIdx - got := by
        rw [free', size, index, Nat.sub_add_eq]
      have taken : ∀ more, filled.Taken more ↔ b.Taken (got + more) := by
        have order := within.order
        intro more
        rw [Taken, Taken, read, index]
        omega
      rw [recvCopies_some nothing, fill, Option.elim_some, left, if_neg some_]
      by_cases low : b.bufsize - b.writeIdx - got < pregap
      · have last : ((filled.recvMore realloc extend).elim [] fun next =>
            recvCopies isSSL realloc errno chunks next.2 next.1) = [] := by
          cases more : filled.recvMore realloc extend with
          | none => rfl
          | some next =>
            rw [recvMore, if_pos (left ▸ low)] at more
            obtain ⟨b', made, rfl⟩ := Option.map_eq_some_iff.mp more
            exact recvCopies_near (within'.makeSpace_kept made).within
              (within'.makeSpace_near made)
        rw [last, if_pos low, if_pos low, List.append_nil, within'.copied_iff, taken]
        exact ⟨fun room _ same => Option.some.inj same ▸ room, fun room => room _ rfl⟩
      · have more : filled.recvMore realloc extend = some (filled, extend) := by
          rw [recvMore, if_neg (left ▸ low)]
        rw [if_neg low, if_neg low, List.nil_append, more, Option.elim_some, ih within', size,
          index, ← Nat.sub_add_eq]
        constructor
        · intro room total found
          obtain ⟨more, rest, rfl⟩ := Option.map_eq_some_iff.mp found
          exact (taken more).mp (room more rest)
        · intro room more found
          exact (taken more).mpr (room _ (by rw [found]; rfl))

theorem Within.clear (within : Within b) : Within b.clear where
  behind := Nat.le_refl _
  order := Nat.le_refl _
  inside := within.behind.trans (within.order.trans within.inside)
  small := within.small

theorem Within.forMessage (within : Within b) : Within b.forMessage :=
  ⟨within.clear.behind, within.clear.order, within.clear.inside, within.clear.small⟩

/-- A copy into the allocation leaves the indices. -/
theorem Within.copyIn (within : Within b) {off : Nat} (copied : b.copyIn off data = some b') :
    Within b' ∧ b'.readIdx = b.readIdx := by
  rw [Buffer.copyIn] at copied
  split_ifs at copied
  cases copied
  exact ⟨⟨within.behind, within.order, within.inside, within.small⟩, rfl⟩

theorem Within.added (within : Within b)
    (added : b.addData data (b.asked realloc data.length) = some b') : Within b' := by
  rw [Buffer.addData] at added
  split_ifs at added
  · cases added
    exact within
  · obtain ⟨b₁, made, added⟩ := Option.bind_eq_some_iff.mp added
    obtain ⟨b₂, copy, added⟩ := Option.bind_eq_some_iff.mp added
    have kept := (within.makeSpace_kept made).within
    rw [Buffer.copyIn] at copy
    split_ifs at copy with fits
    cases copy
    cases added
    exact ⟨kept.behind, Nat.le_add_right_of_le kept.order, fits, kept.small⟩

theorem recvWhile_within (within : Within b) {result : Int × Bytes × Buffer}
    (received : recvWhile isSSL realloc ending chunks errno extend b = some result) :
    Within result.2.2 := by
  induction chunks generalizing b errno extend result with
  | nil =>
    cases received
    exact within
  | cons chunk chunks ih =>
    by_cases nothing : chunk.take b.writeableBytes = []
    · rw [recvWhile_nothing nothing] at received
      cases received
      exact within
    · obtain ⟨filled, fill, within', _⟩ := within.receive chunk
      rw [recvWhile_some nothing, recvNext, fill, Option.bind_some] at received
      obtain ⟨next, more, received⟩ := Option.bind_eq_some_iff.mp received
      obtain ⟨later, looped, same⟩ := Option.map_eq_some_iff.mp received
      have later_ := ih (within'.recvMore_kept more).1 looped
      rw [← same]
      exact later_

/-- Sending only moves the read index. -/
theorem Within.sent (within : Within b) {counts : List Nat} {body : Int}
    {result : Int × Bytes × Buffer}
    (sent : b.sendToSocket isSSL counts errno body = some result) : Within result.2.2 := by
  obtain ⟨ret, bytes, b₁, looped, _, left⟩ := sendWhile_sent isSSL errno counts within
    (by decide : (0 : Int) ≠ tigersoIoError)
  have left := left.within
  rw [Buffer.sendToSocket, looped] at sent
  dsimp only at sent
  split_ifs at sent with all attached near
  · obtain ⟨msgptr, senddone, same⟩ := sendBody_kept b₁ body
    cases sent
    dsimp only
    rw [same]
    exact ⟨left.behind, left.order, left.inside, left.small⟩
  · cases sent
    exact left.clear
  · obtain ⟨b₂, aligned, rfl⟩ := Option.map_eq_some_iff.mp sent
    exact (left.align aligned).1.within
  · cases sent
    exact left

theorem Within.terminate (within : Within b) {text : Bytes × Buffer}
    (read : b.toString = some text) : Within text.2 := by
  obtain ⟨b₁, copied, rfl⟩ := Option.map_eq_some_iff.mp read
  exact (within.copyIn copied).1

theorem Within.removed (within : Within b) {result : Nat × Bytes × Buffer}
    (removed : b.removeData len = some result) : Within result.2.2 := by
  rw [Buffer.removeData] at removed
  obtain ⟨b₁, ended, removed⟩ := Option.bind_eq_some_iff.mp removed
  obtain ⟨b₂, restored, removed⟩ := Option.bind_eq_some_iff.mp removed
  obtain ⟨text, read, removed⟩ := Option.bind_eq_some_iff.mp removed
  rw [← Option.some.inj removed]
  have readable := within.readable
  have length := content_length b
  have fits : (if b.readableBytes < len then b.readableBytes else len) ≤ b.content.length := by
    split_ifs <;> omega
  have advanced := (within.advance fits).within
  have kept := ((advanced.copyIn ended).1.copyIn restored).1.terminate read
  exact kept

/-- A call that has a result leaves the indices in order. -/
theorem Within.call (within : Within b) {c : BufferCall} (called : b.call c = some b') :
    Within b' := by
  cases c with
  | addData data realloc => exact within.added called
  | recvFromSocket isSSL realloc errno chunks ending =>
    obtain ⟨result, received, rfl⟩ := Option.map_eq_some_iff.mp called
    obtain ⟨looped, received, same⟩ := Option.map_eq_some_iff.mp received
    have looped_ := recvWhile_within within received
    rw [← same]
    exact looped_
  | sendToSocket isSSL counts errno body =>
    obtain ⟨result, sent, rfl⟩ := Option.map_eq_some_iff.mp called
    exact within.sent sent
  | removeData len =>
    obtain ⟨result, removed, rfl⟩ := Option.map_eq_some_iff.mp called
    exact within.removed removed
  | attachHttpMessage header realloc =>
    cases header with
    | none =>
      cases called
      exact within
    | some header => exact within.forMessage.added called
  | clear =>
    cases called
    exact within.clear
  | toString =>
    obtain ⟨text, read, rfl⟩ := Option.map_eq_some_iff.mp called
    exact within.terminate read

/-- Behind a loop of sends fewer bytes than a gap are copied from behind a gap. -/
theorem Within.copies_iff (within : Within b) (c : BufferCall) :
    (∀ m ∈ b.copies c, m.Preserved) ↔ b.Spaced c := by
  cases c with
  | addData data realloc =>
    rw [copies, Spaced, Ne, ← List.length_eq_zero_iff]
    split_ifs with nothing
    · exact ⟨fun _ more => absurd nothing more, fun _ => nofun⟩
    · rw [within.copied_iff]
      exact ⟨fun room _ => room, fun room => room nothing⟩
  | recvFromSocket isSSL realloc errno chunks ending => exact recvCopies_iff within
  | sendToSocket isSSL counts errno body =>
    refine ⟨fun _ => trivial, fun _ => ?_⟩
    obtain ⟨ret, bytes, b₁, looped, _, left⟩ := sendWhile_sent isSSL errno counts within
      (by decide : (0 : Int) ≠ tigersoIoError)
    rw [copies, looped]
    dsimp only
    split_ifs with all near
    · exact nofun
    · have room : b₁.Taken 0 := by
        rw [Taken]
        omega
      exact left.within.copied_iff.mpr room
    · exact nofun
  | attachHttpMessage header realloc =>
    refine ⟨fun _ => trivial, fun _ => ?_⟩
    cases header with
    | none => exact nofun
    | some header =>
      rw [copies]
      split_ifs
      · exact nofun
      · have start : b.forMessage.Taken 0 := fun _ => Nat.le_refl _
        exact within.forMessage.copied_iff.mpr start
  | removeData len => exact ⟨fun _ => trivial, fun _ => nofun⟩
  | clear => exact ⟨fun _ => trivial, fun _ => nofun⟩
  | toString => exact ⟨fun _ => trivial, fun _ => nofun⟩

theorem construct_within (garbage : Nat → Byte) : Within (construct leastLen garbage) :=
  ⟨Nat.le_refl _, Nat.le_refl _, (by decide : prefix_ ≤ leastLen),
    (by decide : leastLen < 2 ^ 63)⟩

/-- Every copy of a run is between disjoint ranges exactly when every call of it is made with room
in front. -/
theorem copies_preserved_iff (garbage : Nat → Byte) (calls : List BufferCall) :
    (∀ m ∈ trace call copies (construct leastLen garbage) calls, m.Preserved) ↔
      Throughout call Spaced (construct leastLen garbage) calls :=
  forall_trace_iff Within (fun _ c within => within.copies_iff c)
    (fun _ _ _ within _ => within.call)
    (construct_within garbage) calls

end

def granting : Realloc := ⟨fun size => decide (size < 2 ^ 63), fun _ => of_decide_eq_true⟩

def outrun : List BufferCall :=
  [.addData (List.replicate (1024 * 1024) 0) granting,
    .sendToSocket false [256 * 1024 - 1] eagain 0, .addData [0] granting]

def megabyte (buffer : Nat → Byte) (taken : Nat) : Buffer :=
  ⟨buffer, prefix_ + taken, prefix_ + 1024 * 1024, leastLen + 8 * (256 * 1024), false, false⟩

theorem megabyte_within (buffer : Nat → Byte) {taken : Nat} (part : taken ≤ 1024 * 1024) :
    Within (megabyte buffer taken) :=
  ⟨Nat.le_add_right _ _, Nat.add_le_add_left part _,
    (by decide : prefix_ + 1024 * 1024 ≤ leastLen + 8 * (256 * 1024)),
    (by decide : leastLen + 8 * (256 * 1024) < 2 ^ 63)⟩

/-- The megabyte lies at the start of an allocation that has grown for it. -/
theorem megabyte_added (garbage : Nat → Byte) {data : Bytes} (size : data.length = 1024 * 1024) :
    (construct leastLen garbage).call (.addData data granting) =
      some (megabyte (paste garbage prefix_ data) 0) := by
  have within := construct_within garbage
  have allocated : construct leastLen garbage =
      ⟨garbage, prefix_, prefix_, leastLen, false, false⟩ := by
    rw [construct, if_neg (by decide)]
  have near : (construct leastLen garbage).align = some (construct leastLen garbage) := by
    rw [align, within.prefree, if_pos (by exact (by decide : prefix_ - prefix_ < gainGap))]
  have low : ¬ 1024 * 1024 < (construct leastLen garbage).writeableBytes := by
    rw [within.writeable, allocated]
    exact (by decide : ¬ 1024 * 1024 < leastLen - prefix_)
  have found : extendFor (1024 * 1024) 46 gainGap = some (8 * (256 * 1024)) := by decide
  have granted : (construct leastLen garbage).asked granting (1024 * 1024) = true := by
    rw [asked, found, allocated]
    exact (by decide : granting.grants (leastLen + 8 * (256 * 1024)) = true)
  have fits : prefix_ + data.length ≤ leastLen + 8 * (256 * 1024) := by
    rw [size]
    decide
  rw [call, addData, size, if_neg (by decide), granted, makeSpace, near, Option.bind_eq_bind,
    Option.bind_some, if_neg low, found, allocated, Option.bind_eq_bind, Option.bind_some,
    if_pos rfl, Option.bind_some]
  dsimp only
  rw [copyIn, if_pos fits, Option.bind_some]
  simp only [megabyte, Nat.add_zero, Nat.reduceMul]

/-- A quarter of it is taken, and the rest stays where it is. -/
theorem megabyte_sent (buffer : Nat → Byte) :
    (megabyte buffer 0).call (.sendToSocket false [256 * 1024 - 1] eagain 0) =
      some (megabyte buffer (256 * 1024)) := by
  have within := megabyte_within buffer (Nat.zero_le _)
  have all : (megabyte buffer 0).content.length = 1024 * 1024 := content_length _
  have rest : (megabyte buffer (256 * 1024)).readableBytes ≠ 0 := by
    rw [(megabyte_within buffer (by decide)).readable, content_length]
    exact (by decide : prefix_ + 1024 * 1024 - (prefix_ + 256 * 1024) ≠ 0)
  have advanced : { megabyte buffer 0 with
      readIdx := (megabyte buffer 0).readIdx + 256 * 1024 } = megabyte buffer (256 * 1024) := by
    rw [megabyte, megabyte, Nat.add_zero]
  have left : ¬ prefix_ + 1024 * 1024 = prefix_ + 256 * 1024 := by decide
  have far : ¬ prefix_ + 1024 * 1024 < prefix_ + 256 * 1024 + gainGap := by decide
  have looped : ∃ ret sent, sendWhile false eagain [256 * 1024 - 1] 0 (megabyte buffer 0) =
      (ret, sent, megabyte buffer (256 * 1024)) := by
    have quarter : accepted (256 * 1024 - 1) (1024 * 1024) = 256 * 1024 := by decide
    rw [sendWhile, sendOnce_sent within, within.readable, all, quarter, if_neg (by decide)]
    dsimp only
    rw [advanced, sendWhile, if_neg rest, sendOnce_failed]
    exact ⟨_, _, rfl⟩
  obtain ⟨ret, sent, looped⟩ := looped
  rw [call, sendToSocket, looped]
  dsimp only
  rw [megabyte, if_neg left, if_neg far]
  rfl

/-- The last copy of the run is between overlapping ranges. -/
theorem not_copies_preserved : ¬ ∀ garbage calls,
    ∀ m ∈ trace call copies (construct leastLen garbage) calls, m.Preserved := by
  intro all
  have spaced := (forall_trace_iff Within (fun _ c within => within.copies_iff c)
    (fun _ _ _ within _ => within.call) (construct_within fun _ => 0) outrun).mp (all _ outrun)
  have first := spaced.2 _ (megabyte_added _ List.length_replicate)
  have second := first.2 _ (megabyte_sent _)
  have close : ¬ (gainGap ≤ prefix_ + 256 * 1024 - prefix_ →
      prefix_ + 1024 * 1024 - (prefix_ + 256 * 1024) + 0 ≤ prefix_ + 256 * 1024 - prefix_) := by
    decide
  exact close (second.1 (List.cons_ne_nil _ _))

end Buffer
