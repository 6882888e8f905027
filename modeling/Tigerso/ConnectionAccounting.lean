import Mathlib.Data.List.Perm.Subperm
import Tigerso.ConnectionRecycling

/-!
# Counting the connections that serve a client

As long as no client times out, a connection whose socket is closed is in the queue of its
type. The identifiers do not run out then, since the open sockets have descriptors of their
own.
-/

open SystemCalls HttpConnection

namespace ConnectionFactory

def fdOf (s : ConnectionFactory) (id : IDType) : Option Nat :=
  (s.connections id).bind fun c => c.sock.sockfd

/-- Every connection whose socket is closed is in the queue, but for the one of `out`. -/
structure Counted (s : ConnectionFactory) (out : Option IDType) : Prop where
  clean : Clean s
  returned : ∀ id c, s.connections id = some c → Gone c →
    id ∈ s.gc httpConnection ∨ out = some id
  base : s.idbase = s.ids.length
  apart : ∀ i j fd, s.fdOf i = some fd → s.fdOf j = some fd → i = j
  small : ∀ i fd, s.fdOf i = some fd → fd < 2 ^ 31

section
variable {s s' : ConnectionFactory} {id : IDType} {c c' : HttpConnection} {out : Option IDType}

/-- Closing descriptors leaves the others apart. -/
theorem Counted.fewer (counted : Counted s out) {t : ConnectionFactory}
    (fewer : ∀ i, t.fdOf i = s.fdOf i ∨ t.fdOf i = none) :
    (∀ i j fd, t.fdOf i = some fd → t.fdOf j = some fd → i = j) ∧
      ∀ i fd, t.fdOf i = some fd → fd < 2 ^ 31 := by
  have kept (i fd : Nat) (found : t.fdOf i = some fd) : s.fdOf i = some fd := by
    rcases fewer i with same | none_
    · rw [← same, found]
    · exact nomatch none_.symm.trans found
  constructor
  · intro i j fd first second
    exact counted.apart i j fd (kept i fd first) (kept j fd second)
  · intro i fd found
    exact counted.small i fd (kept i fd found)

theorem fdOf_put (i : IDType) :
    (s.put id c).fdOf i = if i = id then c.sock.sockfd else s.fdOf i := by
  rw [fdOf, put_connections]
  split_ifs
  · rfl
  · rfl

/-- The descriptors of the connections, when all are open. -/
theorem open_ids_le (counted : Counted s out)
    (opened : ∀ id ∈ s.ids, (s.fdOf id).isSome = true) : s.ids.length ≤ 2 ^ 31 := by
  have image : (s.ids.map fun id => (s.fdOf id).getD 0).Nodup := by
    refine List.Nodup.map_on ?_ counted.clean.distinct
    intro i there j there' same
    obtain ⟨fd, first⟩ := Option.isSome_iff_exists.mp (opened i there)
    obtain ⟨fd', second⟩ := Option.isSome_iff_exists.mp (opened j there')
    rw [first, second, Option.getD_some, Option.getD_some] at same
    rw [same] at first
    exact counted.apart i j fd' first second
  have below : (s.ids.map fun id => (s.fdOf id).getD 0) ⊆ List.range (2 ^ 31) := by
    intro fd there
    obtain ⟨id, known, rfl⟩ := List.mem_map.mp there
    obtain ⟨fd, found⟩ := Option.isSome_iff_exists.mp (opened id known)
    rw [found, Option.getD_some]
    exact List.mem_range.mpr (counted.small id fd found)
  have fewer := (List.subperm_of_subset image below).length_le
  rwa [List.length_map, List.length_range] at fewer

/-- A connection that is not gone is open. -/
theorem Counted.open_of_free (counted : Counted s none) (known : id ∈ s.ids)
    (free : id ∉ s.gc httpConnection) : (s.fdOf id).isSome = true := by
  obtain ⟨c, there⟩ := Option.isSome_iff_exists.mp ((counted.clean.keys id).mp known)
  rw [fdOf, there]
  rcases counted.clean.served id c there with live | gone
  · exact live.connected.opened
  · rcases counted.returned id c there gone with queued | absurd_
    · exact absurd queued free
    · exact nomatch absurd_

/-- A new connection is created only when all others are open. -/
theorem Counted.ids_left (counted : Counted s none) (empty : s.gc httpConnection = []) :
    s.idbase < IDType.max := by
  have few := open_ids_le counted fun id known => counted.open_of_free known (by
    rw [empty]
    exact List.not_mem_nil)
  rw [counted.base, IDType.max]
  omega

/-- A connection is put back with its socket or without one. -/
theorem put_fds {c : HttpConnection}
    (kept : c.sock.sockfd = s.fdOf id ∨ c.sock.sockfd = none) (i : IDType) :
    (s.put id c).fdOf i = s.fdOf i ∨ (s.put id c).fdOf i = none := by
  rw [fdOf_put]
  split_ifs with same
  · rw [same]
    exact kept
  · exact Or.inl rfl

theorem reuse_fds {rest : List IDType} (acptptr : Acceptor) (clean : Clean s)
    (queue : s.gc httpConnection = id :: rest) (i : IDType) :
    ({ s with gc := Function.update s.gc acptptr.type rest }.modify id
        (linkToAcceptor acptptr)).fdOf i = s.fdOf i ∨
      ({ s with gc := Function.update s.gc acptptr.type rest }.modify id
        (linkToAcceptor acptptr)).fdOf i = none := by
  obtain ⟨c, there, idle⟩ := clean.idle id (by rw [queue]; exact List.mem_cons_self)
  have changed := @modify_eq { s with gc := Function.update s.gc acptptr.type rest } id c
    (linkToAcceptor acptptr) there
  have closed : (linkToAcceptor acptptr c).sock.sockfd = none := idle.gone.closed
  rw [changed]
  exact @put_fds { s with gc := Function.update s.gc acptptr.type rest } id _ (Or.inr closed) i

theorem create_fds (acptptr : Acceptor) (garbage : Nat → Byte) (i : IDType) :
    ({ s with idbase := s.allocID }.assign s.allocID
        (.construct s.allocID acptptr garbage)).fdOf i = s.fdOf i ∨
      ({ s with idbase := s.allocID }.assign s.allocID
        (.construct s.allocID acptptr garbage)).fdOf i = none := by
  exact @put_fds { s with idbase := s.allocID } s.allocID
    (.construct s.allocID acptptr garbage) (Or.inr rfl) i

/-- `createConnection` opens no socket. -/
theorem createConnection_fds {acptptr : Acceptor} (garbage : Nat → Byte) (clean : Clean s)
    (type : acptptr.type = httpConnection) (i : IDType) :
    (s.createConnection acptptr garbage).2.fdOf i = s.fdOf i ∨
      (s.createConnection acptptr garbage).2.fdOf i = none := by
  rw [createConnection]
  cases queue : s.gc acptptr.type with
  | nil => exact create_fds acptptr garbage i
  | cons id rest => exact reuse_fds acptptr clean (type ▸ queue) i

/-- A connection from the queue is counted as in use. -/
theorem reuse_counted {acptptr : Acceptor} {rest : List IDType} (counted : Counted s none)
    (type : acptptr.type = httpConnection) (queue : s.gc httpConnection = id :: rest) :
    Counted ({ s with gc := Function.update s.gc acptptr.type rest }.modify id
      (linkToAcceptor acptptr)) (some id) := by
  obtain ⟨c, there, idle⟩ := counted.clean.idle id (by rw [queue]; exact List.mem_cons_self)
  have handed := reuse_handed counted.clean type queue
  have changed := @modify_eq { s with gc := Function.update s.gc acptptr.type rest } id c
    (linkToAcceptor acptptr) there
  rw [changed] at handed ⊢
  have fds := reuse_fds acptptr counted.clean queue
  rw [changed] at fds
  obtain ⟨apart, small⟩ := counted.fewer fds
  refine ⟨handed.clean, ?_, counted.base, apart, small⟩
  intro i d found gone
  rw [put_connections] at found
  split_ifs at found with same
  · exact Or.inr (congrArg some same.symm)
  · rcases counted.returned i d found gone with queued | absurd_
    · rw [queue] at queued
      refine Or.inl ?_
      show i ∈ Function.update s.gc acptptr.type rest httpConnection
      rw [type, Function.update_self]
      exact (List.mem_cons.mp queued).resolve_left same
    · exact nomatch absurd_

/-- So is one that is made because the queue is empty. -/
theorem create_counted {acptptr : Acceptor} {garbage : Nat → Byte} (counted : Counted s none)
    (type : acptptr.type = httpConnection) (empty : s.gc httpConnection = []) :
    Counted ({ s with idbase := s.allocID }.assign s.allocID
      (.construct s.allocID acptptr garbage)) (some s.allocID) := by
  have left := counted.ids_left empty
  have handed := @create_handed s acptptr garbage counted.clean type left
  obtain ⟨next, fresh⟩ := allocID_fresh counted.clean left
  have new : s.allocID ∉ s.ids := by
    intro there
    have found := (counted.clean.keys _).mp there
    rw [fresh] at found
    cases found
  rw [assign, if_neg new] at handed ⊢
  obtain ⟨apart, small⟩ := counted.fewer (create_fds acptptr garbage)
  refine ⟨handed.clean, ?_, ?_, apart, small⟩
  · intro i d found gone
    have found : ({ s with idbase := s.allocID }.put s.allocID
      (.construct s.allocID acptptr garbage)).connections i = some d := found
    rw [put_connections] at found
    split_ifs at found with same
    · exact Or.inr (congrArg some same.symm)
    · exact (counted.returned i d found gone).imp (fun queued => queued)
        (fun wrong => by cases wrong)
  · show s.allocID = (s.ids ++ [s.allocID]).length
    rw [List.length_append, List.length_singleton, ← counted.base, next]

theorem createConnection_counted {acptptr : Acceptor} {garbage : Nat → Byte}
    (counted : Counted s none) (type : acptptr.type = httpConnection) :
    Handed (s.createConnection acptptr garbage).2 (s.createConnection acptptr garbage).1 ∧
      Counted (s.createConnection acptptr garbage).2
        (some (s.createConnection acptptr garbage).1) := by
  refine ⟨createConnection_handed counted.clean type fun empty =>
    counted.ids_left (type ▸ empty), ?_⟩
  rw [createConnection]
  cases queue : s.gc acptptr.type with
  | nil => exact create_counted counted type (type ▸ queue)
  | cons id rest => exact reuse_counted counted type (type ▸ queue)

/-- A client with a descriptor of its own is accepted. -/
theorem Counted.accept {fd : Nat} (counted : Counted s (some id)) (handed : Handed s id)
    (fresh : ∀ i, s.fdOf i ≠ some fd) (inside : fd < 2 ^ 31) :
    Counted (s.modify id (acceptClient fd)) none := by
  obtain ⟨c, there, idle⟩ := handed.idle
  have clean := handed.accept fd
  have live : Live (acceptClient fd c) := acceptClient_live idle
  have socket : (acceptClient fd c).sock.sockfd = some fd := by
    simp [acceptClient, NetSocket.setHandles, NetSocket.registerChannel, NetSocket.exist]
  rw [modify_eq there] at clean ⊢
  refine ⟨clean, ?_, counted.base, ?_, ?_⟩
  · intro i d found gone
    rw [put_connections] at found
    split_ifs at found with same
    · cases found
      exact absurd gone (live_not_gone live)
    · rcases counted.returned i d found gone with queued | out
      · exact Or.inl queued
      · exact absurd (Option.some.inj out).symm same
  · intro i j e first second
    rw [fdOf_put] at first second
    rw [socket] at first second
    split_ifs at first second with same same' same'
    · exact same.trans same'.symm
    · rw [← first] at second
      exact absurd second (fresh j)
    · rw [← second] at first
      exact absurd first (fresh i)
    · exact counted.apart i j e first second
  · intro i e found
    rw [fdOf_put, socket] at found
    split_ifs at found
    · cases found
      exact inside
    · exact counted.small i e found

/-- A connection that was handed out is given back. -/
theorem Counted.giveBack (counted : Counted s (some id)) (handed : Handed s id) :
    Counted (s.recycle id) none := by
  obtain ⟨c, there, idle⟩ := handed.idle
  obtain ⟨sameId, type⟩ := handed.clean.own id c there
  have clean := handed.recycle
  rw [recycle, there] at clean ⊢
  have closed : c.restart.sock.sockfd = none := rfl
  obtain ⟨apart, small⟩ := counted.fewer (put_fds (Or.inr closed))
  refine ⟨clean, ?_, counted.base, apart, small⟩
  intro i d found gone
  refine Or.inl ?_
  show i ∈ c.push s.gc httpConnection
  rw [HttpConnection.push, type, Function.update_self, sameId, List.mem_append,
    List.mem_singleton]
  have found : (s.put id c.restart).connections i = some d := found
  rw [put_connections] at found
  split_ifs at found with same
  · exact Or.inr same
  · rcases counted.returned i d found gone with queued | out
    · exact Or.inl queued
    · exact Or.inr (Option.some.inj out).symm

/-- A call that settles. -/
theorem Counted.settle {o : Outcome} (counted : Counted s none) (there : s.connections id = some c)
    (free : id ∉ s.gc httpConnection) (settled : Settled c s.gc o) :
    Counted { s.put id o.conn with gc := o.gc } none := by
  have clean := counted.clean.settle there free settled
  obtain ⟨sameId, type⟩ := counted.clean.own id c there
  have known : s.fdOf id = c.sock.sockfd := by
    rw [fdOf, there]
    rfl
  have socket : o.conn.sock.sockfd = s.fdOf id ∨ o.conn.sock.sockfd = none := by
    cases settled with
    | kept _ _ fd _ => exact Or.inl (fd.trans known.symm)
    | recycled _ idle _ => exact Or.inr idle.gone.closed
  obtain ⟨apart, small⟩ := counted.fewer (put_fds socket)
  refine ⟨clean, ?_, counted.base, apart, small⟩
  intro i d found gone
  refine Or.inl ?_
  show i ∈ o.gc httpConnection
  have found : (s.put id o.conn).connections i = some d := found
  rw [put_connections] at found
  cases settled with
  | kept _ live _ queues =>
    rw [queues]
    split_ifs at found with same
    · cases found
      exact absurd gone (live_not_gone live)
    · exact (counted.returned i d found gone).resolve_right nofun
  | recycled _ _ queues =>
    rw [queues, HttpConnection.push, type, Function.update_self, sameId, List.mem_append,
      List.mem_singleton]
    split_ifs at found with same
    · exact Or.inr same
    · exact Or.inl ((counted.returned i d found gone).resolve_right nofun)

/-- No client times out. -/
def NoTimeout (s : ConnectionFactory) : ServerEvent → Prop
  | .called id kind _ => ∀ c handler, s.boundHandler id kind = some (c, handler) →
      handler ≠ .timeoutHandle
  | _ => True

/-- One step without a timeout. -/
theorem Counted.step {event : ServerEvent} (counted : Counted s none) (genuine : Genuine s event)
    (granted : Granted s event) (noTimeout : NoTimeout s event) (steps : s.step event = some s') :
    Counted s' none := by
  cases event with
  | accepted acptptr fd garbage =>
    cases steps
    obtain ⟨type, inside, fresh⟩ := genuine
    obtain ⟨handed, out⟩ := @createConnection_counted s acptptr garbage counted type
    refine out.accept handed ?_ inside
    intro i found
    rcases createConnection_fds garbage counted.clean type i with same | none_
    · rw [same, fdOf] at found
      obtain ⟨c, there, socket⟩ := Option.bind_eq_some_iff.mp found
      exact fresh i c there socket
    · exact nomatch none_.symm.trans found
  | refused acptptr garbage =>
    cases steps
    obtain ⟨handed, out⟩ := @createConnection_counted s acptptr garbage counted genuine
    exact out.giveBack handed
  | called id kind a =>
    obtain ⟨⟨c, handler⟩, bound, steps⟩ := Option.bind_eq_some_iff.mp steps
    obtain ⟨o, done, same⟩ := Option.bind_eq_some_iff.mp steps
    cases same
    obtain ⟨there, live, free⟩ := counted.clean.bound bound
    refine counted.settle there free (handle_settled live ?_ (noTimeout c handler bound) done)
    exact fun read state enabled => granted c handler bound ⟨read, state, enabled⟩

/-- Closed connections are queued, and the others are what `countAliveConnection` counts. -/
structure Accounted (s : ConnectionFactory) : Prop where
  queued : ∀ id c, s.connections id = some c → c.sock.sockfd = none → id ∈ s.gc c.getType
  alive : s.countAliveConnection = (s.ids.countP fun id => (s.fdOf id).isSome : Nat)

theorem Counted.mem_queue_iff (counted : Counted s none) (id : IDType) :
    id ∈ s.gc httpConnection ↔ id ∈ s.ids ∧ (s.fdOf id).isSome = false := by
  constructor
  · intro queued
    obtain ⟨c, there, idle⟩ := counted.clean.idle id queued
    refine ⟨(counted.clean.keys id).mpr (by rw [there]; rfl), ?_⟩
    rw [fdOf, there, Option.bind_some, idle.gone.closed]
    rfl
  · rintro ⟨known, closed⟩
    by_contra free
    rw [counted.open_of_free known free] at closed
    exact nomatch closed

/-- As many connections are queued as are closed. -/
theorem Counted.queue_length (counted : Counted s none) :
    (s.gc httpConnection).length = s.ids.countP fun id => ¬ (s.fdOf id).isSome := by
  have same : (s.gc httpConnection).Perm (s.ids.filter fun id => ¬ (s.fdOf id).isSome) := by
    refine (List.perm_ext_iff_of_nodup counted.clean.nodup (counted.clean.distinct.filter _)).mpr ?_
    intro id
    rw [counted.mem_queue_iff, List.mem_filter]
    simp
  rw [same.length_eq, List.countP_eq_length_filter]

theorem Counted.accounted (counted : Counted s none) : Accounted s where
  queued := by
    intro id c there closed
    obtain ⟨_, type⟩ := counted.clean.own id c there
    rw [type, counted.mem_queue_iff]
    refine ⟨(counted.clean.keys id).mpr (by rw [there]; rfl), ?_⟩
    rw [fdOf, there, Option.bind_some, closed]
    rfl
  alive := by
    have split := List.length_eq_countP_add_countP (fun id => (s.fdOf id).isSome) (l := s.ids)
    have proxies : s.gc httpProxyConnection = [] :=
      counted.clean.others httpProxyConnection (by decide)
    rw [countAliveConnection, proxies, counted.queue_length, split, List.length_nil]
    omega

/-- The steps of a run in which contexts are granted and no client times out. -/
def Timely (s : ConnectionFactory) (event : ServerEvent) : Prop :=
  Genuine s event ∧ Granted s event ∧ NoTimeout s event

theorem counted_init : Counted init none := by
  refine ⟨clean_init, ?_, rfl, ?_, ?_⟩
  · intro id c found
    cases found
  · intro i j fd found
    cases found
  · intro i fd found
    cases found

theorem counted_of_timely (run : Reaches Timely s) : Counted s none :=
  @Reaches.invariant Timely (Counted · none) counted_init (fun counted allowed steps =>
    counted.step allowed.1 allowed.2.1 allowed.2.2 steps) s run

/-- In every run. -/
theorem clients_accounted (run : Reaches Timely s) : Accounted s :=
  (counted_of_timely run).accounted

/-- Every timeout leaves a closed connection that is not queued. -/
theorem timeout_leaks {kind : CallbackKind} {a : Answers} (counted : Counted s none)
    (bound : s.boundHandler id kind = some (c, .timeoutHandle))
    (steps : s.step (.called id kind a) = some s') : ¬ Accounted s' := by
  obtain ⟨there, _, free⟩ := counted.clean.bound bound
  obtain ⟨_, type⟩ := counted.clean.own id c there
  obtain ⟨⟨d, handler⟩, found, steps⟩ := Option.bind_eq_some_iff.mp steps
  cases bound.symm.trans found
  obtain ⟨o, done, same⟩ := Option.bind_eq_some_iff.mp steps
  cases same
  obtain ⟨same, gone, queues⟩ := timeout_settles done
  intro accounted
  have queued := accounted.queued id o.conn ((put_connections id).trans (if_pos rfl)) gone.closed
  rw [getType, same.acptptr] at queued
  have queued : id ∈ o.gc c.getType := queued
  rw [queues, type] at queued
  exact free queued

end

/-- A client comes and goes. -/
theorem one_client_accounted :
    ∃ s, Reaches Timely s ∧ s.gc httpConnection = [1] ∧ Accounted s := by
  have first : Timely init (.accepted httpServer 16 zeros) := ⟨genuine_first rfl, trivial, trivial⟩
  have run : Reaches Timely (oneClient httpServer) := oneClient_reached first
  obtain ⟨s, steps, queue⟩ : ∃ s, (oneClient httpServer).step (.called 1 .rdhup silent) = some s ∧
      s.gc httpConnection = [1] := ⟨_, rfl, rfl⟩
  obtain ⟨d, rdhup⟩ : ∃ d, (oneClient httpServer).boundHandler 1 .rdhup =
      some (d, .rdhupHandle) := ⟨_, rfl⟩
  have next : Timely (oneClient httpServer) (.called 1 .rdhup silent) := by
    refine ⟨trivial, ?_, ?_⟩
    · rintro c handler bound ⟨read, _, _⟩
      rw [read] at bound
      exact nomatch congrArg Prod.snd (Option.some.inj (rdhup.symm.trans bound))
    · rintro c handler bound timeout
      rw [timeout] at bound
      exact nomatch congrArg Prod.snd (Option.some.inj (rdhup.symm.trans bound))
  have reached := run.next next steps
  exact ⟨s, reached, queue, clients_accounted reached⟩

/-- A client that times out is counted for ever. -/
theorem timed_out_client_leaks :
    ¬ ∀ s, Reaches (fun s event => Genuine s event ∧ Granted s event) s → Accounted s := by
  intro accounted
  have first : Timely init (.accepted httpServer 16 zeros) := ⟨genuine_first rfl, trivial, trivial⟩
  have counted := counted_of_timely (oneClient_reached first)
  obtain ⟨d, timeout⟩ : ∃ d, (oneClient httpServer).boundHandler 1 .timeout =
      some (d, .timeoutHandle) := ⟨_, rfl⟩
  obtain ⟨s, steps⟩ : ∃ s, (oneClient httpServer).step (.called 1 .timeout silent) = some s :=
    ⟨_, rfl⟩
  have next : Genuine (oneClient httpServer) (.called 1 .timeout silent) ∧
      Granted (oneClient httpServer) (.called 1 .timeout silent) := by
    refine ⟨trivial, ?_⟩
    rintro c handler bound ⟨read, _, _⟩
    rw [read] at bound
    exact nomatch congrArg Prod.snd (Option.some.inj (timeout.symm.trans bound))
  have run : Reaches (fun s event => Genuine s event ∧ Granted s event) (oneClient httpServer) :=
    oneClient_reached ⟨first.1, first.2.1⟩
  exact timeout_leaks counted timeout steps (accounted s (run.next next steps))

end ConnectionFactory
