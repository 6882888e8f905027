import Tigerso.ConnectionLifetime

/-!
# The queues of identifiers that are used again

The identifiers in a queue are those of connections of its type whose client sockets are
closed, and none of them is there twice.
-/

open SystemCalls HttpConnection

namespace ConnectionFactory

/-- The step asks for an SSL context. -/
def AsksForContext (c : HttpConnection) (handler : HttpHandler) : Prop :=
  handler = .readHandle ∧ c.state = .tcpInit ∧ c.acptptr.sslEnabled = true

/-- A step of a process whose acceptors are HTTP servers; the kernel gives descriptors that
are not open, and an `int` holds them. -/
def Genuine (s : ConnectionFactory) : ServerEvent → Prop
  | .accepted acptptr fd _ => acptptr.type = httpConnection ∧ fd < 2 ^ 31 ∧
      ∀ id c, s.connections id = some c → c.sock.sockfd ≠ some fd
  | .refused acptptr _ => acptptr.type = httpConnection
  | .called _ _ _ => True

/-- Every SSL context that is asked for is granted. -/
def Granted (s : ConnectionFactory) : ServerEvent → Prop
  | .called id kind a => ∀ c handler, s.boundHandler id kind = some (c, handler) →
      AsksForContext c handler → a.prepared = true
  | _ => True

/-- Identifiers are left when a connection is created. -/
def IdsLeft (s : ConnectionFactory) : ServerEvent → Prop
  | .accepted acptptr _ _ => s.gc acptptr.type = [] → s.idbase < IDType.max
  | .refused acptptr _ => s.gc acptptr.type = [] → s.idbase < IDType.max
  | .called _ _ _ => True

/-- The connections and the queue of the HTTP servers. -/
structure Clean (s : ConnectionFactory) : Prop where
  own : ∀ id c, s.connections id = some c → c.id_ = id ∧ c.getType = httpConnection
  served : ∀ id c, s.connections id = some c → Live c ∨ Gone c
  others : ∀ type, type ≠ httpConnection → s.gc type = []
  nodup : (s.gc httpConnection).Nodup
  idle : ∀ id ∈ s.gc httpConnection, ∃ c, s.connections id = some c ∧ Idle c
  bounded : ∀ id c, s.connections id = some c → id ≤ s.idbase
  keys : ∀ id, id ∈ s.ids ↔ (s.connections id).isSome = true
  distinct : s.ids.Nodup

section
variable {s s' : ConnectionFactory} {id : IDType} {c c' : HttpConnection}

theorem put_connections (i : IDType) :
    (s.put id c).connections i = if i = id then some c else s.connections i := by
  exact Function.update_apply _ _ _ _

theorem clean_init : Clean init := by
  constructor
  · intro id c found
    cases found
  · intro id c found
    cases found
  · exact fun _ _ => rfl
  · exact List.nodup_nil
  · intro id queued
    cases queued
  · intro id c found
    cases found
  · exact fun _ => ⟨nofun, nofun⟩
  · exact List.nodup_nil

theorem live_not_gone (live : Live c) : ¬ Gone c := by
  intro gone
  have opened := live.connected.opened
  rw [gone.closed] at opened
  exact nomatch opened

/-- The connection of an identifier that is in no queue is replaced. -/
theorem Clean.put (clean : Clean s) (there : s.connections id = some c)
    (free : id ∉ s.gc httpConnection) (own : c'.id_ = id ∧ c'.getType = httpConnection)
    (served : Live c' ∨ Gone c') : Clean (s.put id c') := by
  have known (i : IDType) (d : HttpConnection) (found : (s.put id c').connections i = some d) :
      i = id ∧ d = c' ∨ i ≠ id ∧ s.connections i = some d := by
    rw [put_connections] at found
    split_ifs at found with same
    · cases found
      exact Or.inl ⟨same, rfl⟩
    · exact Or.inr ⟨same, found⟩
  refine ⟨?_, ?_, clean.others, clean.nodup, ?_, ?_, ?_, clean.distinct⟩
  · intro i d found
    rcases known i d found with ⟨rfl, rfl⟩ | ⟨_, found⟩
    · exact own
    · exact clean.own i d found
  · intro i d found
    rcases known i d found with ⟨rfl, rfl⟩ | ⟨_, found⟩
    · exact served
    · exact clean.served i d found
  · intro i queued
    obtain ⟨d, found, idle⟩ := clean.idle i queued
    have other : i ≠ id := fun same => free (same ▸ queued)
    refine ⟨d, ?_, idle⟩
    rw [put_connections, if_neg other, found]
  · intro i d found
    rcases known i d found with ⟨rfl, rfl⟩ | ⟨_, found⟩
    · exact clean.bounded i c there
    · exact clean.bounded i d found
  · intro i
    rw [put_connections]
    split_ifs with same
    · rw [same]
      exact ⟨fun _ => rfl, fun _ => (clean.keys id).mpr (by rw [there]; rfl)⟩
    · exact clean.keys i

/-- The identifier of a connection that became idle is pushed. -/
theorem Clean.push (clean : Clean s) (there : s.connections id = some c)
    (free : id ∉ s.gc httpConnection) (idle : Idle c) :
    Clean { s with gc := c.push s.gc } := by
  obtain ⟨sameId, type⟩ := clean.own id c there
  have queue : c.push s.gc httpConnection = s.gc httpConnection ++ [id] := by
    rw [HttpConnection.push, type, sameId, Function.update_self]
  refine ⟨clean.own, clean.served, ?_, ?_, ?_, clean.bounded, clean.keys, clean.distinct⟩
  · intro other ne
    show c.push s.gc other = []
    rw [HttpConnection.push, type, Function.update_of_ne ne]
    exact clean.others other ne
  · show (c.push s.gc httpConnection).Nodup
    rw [queue]
    refine List.nodup_append.mpr ⟨clean.nodup, List.nodup_singleton id, ?_⟩
    rintro i queued j there rfl
    exact free (List.mem_singleton.mp there ▸ queued)
  · intro i queued
    have queued : i ∈ c.push s.gc httpConnection := queued
    rw [queue] at queued
    rcases List.mem_append.mp queued with earlier | new
    · exact clean.idle i earlier
    · rw [List.mem_singleton.mp new]
      exact ⟨c, there, idle⟩

theorem modify_eq {change : HttpConnection → HttpConnection} (there : s.connections id = some c) :
    s.modify id change = s.put id (change c) := by
  rw [modify, there]

/-- A connection that was handed out: it is in no queue, and waits for a client. -/
structure Handed (s : ConnectionFactory) (id : IDType) : Prop where
  clean : Clean s
  free : id ∉ s.gc httpConnection
  idle : ∃ c, s.connections id = some c ∧ Idle c

theorem idle_construct {acptptr : Acceptor} {garbage : Nat → Byte} :
    Idle (.construct id acptptr garbage) := ⟨⟨rfl, rfl⟩, rfl⟩

/-- The front of the queue is handed out. -/
theorem reuse_handed {acptptr : Acceptor} {rest : List IDType} (clean : Clean s)
    (type : acptptr.type = httpConnection) (queue : s.gc httpConnection = id :: rest) :
    Handed ({ s with gc := Function.update s.gc acptptr.type rest }.modify id
      (linkToAcceptor acptptr)) id := by
  obtain ⟨c, there, idle⟩ := clean.idle id (by rw [queue]; exact List.mem_cons_self)
  have nodup := clean.nodup
  rw [queue] at nodup
  have free : id ∉ rest := (List.nodup_cons.mp nodup).1
  have popped : Function.update s.gc acptptr.type rest httpConnection = rest := by
    rw [type, Function.update_self]
  have taken : Clean { s with gc := Function.update s.gc acptptr.type rest } := by
    refine ⟨clean.own, clean.served, ?_, ?_, ?_, clean.bounded, clean.keys, clean.distinct⟩
    · intro other ne
      show Function.update s.gc acptptr.type rest other = []
      rw [type, Function.update_of_ne ne]
      exact clean.others other ne
    · show (Function.update s.gc acptptr.type rest httpConnection).Nodup
      rw [popped]
      exact (List.nodup_cons.mp nodup).2
    · intro i queued
      have queued : i ∈ Function.update s.gc acptptr.type rest httpConnection := queued
      rw [popped] at queued
      exact clean.idle i (by rw [queue]; exact List.mem_cons_of_mem _ queued)
  have free' : id ∉ Function.update s.gc acptptr.type rest httpConnection := by
    rw [popped]
    exact free
  have changed := @modify_eq { s with gc := Function.update s.gc acptptr.type rest } id c
    (linkToAcceptor acptptr) there
  rw [changed]
  refine ⟨taken.put there free' ⟨(clean.own id c there).1, type⟩ 
    (Or.inr ⟨idle.gone.closed, idle.gone.unregistered⟩), free', ?_⟩
  refine ⟨linkToAcceptor acptptr c, ?_, ⟨⟨idle.gone.closed, idle.gone.unregistered⟩, idle.state⟩⟩
  rw [put_connections, if_pos rfl]

/-- The identifier of a new connection was not given before. -/
theorem allocID_fresh (clean : Clean s) (left : s.idbase < IDType.max) :
    s.allocID = s.idbase + 1 ∧ s.connections s.allocID = none := by
  have next : s.allocID = s.idbase + 1 := by
    rw [allocID, if_neg (Nat.not_le_of_lt left)]
  refine ⟨next, ?_⟩
  cases found : s.connections s.allocID with
  | none => rfl
  | some c =>
    have bounded := clean.bounded _ c found
    rw [next] at bounded
    exact absurd bounded (Nat.not_succ_le_self _)

/-- A new connection is handed out. -/
theorem create_handed {acptptr : Acceptor} {garbage : Nat → Byte} (clean : Clean s)
    (type : acptptr.type = httpConnection) (left : s.idbase < IDType.max) :
    Handed ({ s with idbase := s.allocID }.assign s.allocID
      (.construct s.allocID acptptr garbage)) s.allocID := by
  obtain ⟨next, fresh⟩ := allocID_fresh clean left
  have new : s.allocID ∉ s.ids := by
    intro there
    have found := (clean.keys _).mp there
    rw [fresh] at found
    exact nomatch found
  have free : s.allocID ∉ s.gc httpConnection := by
    intro queued
    obtain ⟨c, found, _⟩ := clean.idle _ queued
    exact nomatch fresh.symm.trans found
  rw [assign, if_neg new]
  have look (i : IDType) : ({ s with idbase := s.allocID }.put s.allocID
      (.construct s.allocID acptptr garbage)).connections i =
        if i = s.allocID then some (.construct s.allocID acptptr garbage)
        else s.connections i := put_connections i
  have known (i : IDType) (d : HttpConnection) (found : ({ s with idbase := s.allocID }.put
      s.allocID (.construct s.allocID acptptr garbage)).connections i = some d) :
      i = s.allocID ∧ d = .construct s.allocID acptptr garbage ∨
        i ≠ s.allocID ∧ s.connections i = some d := by
    rw [look] at found
    split_ifs at found with same
    · cases found
      exact Or.inl ⟨same, rfl⟩
    · exact Or.inr ⟨same, found⟩
  refine ⟨⟨?_, ?_, clean.others, clean.nodup, ?_, ?_, ?_, ?_⟩, free,
    .construct s.allocID acptptr garbage, ?_, idle_construct⟩
  · intro i d found
    rcases known i d found with ⟨rfl, rfl⟩ | ⟨_, found⟩
    · exact ⟨rfl, type⟩
    · exact clean.own i d found
  · intro i d found
    rcases known i d found with ⟨rfl, rfl⟩ | ⟨_, found⟩
    · exact Or.inr idle_construct.gone
    · exact clean.served i d found
  · intro i queued
    obtain ⟨d, found, idle⟩ := clean.idle i queued
    refine ⟨d, ?_, idle⟩
    have other : i ≠ s.allocID := fun same => free (same ▸ queued)
    exact (look i).trans ((if_neg other).trans found)
  · intro i d found
    rcases known i d found with ⟨rfl, rfl⟩ | ⟨_, found⟩
    · exact Nat.le_refl _
    · have bounded := clean.bounded i d found
      show i ≤ s.allocID
      rw [next]
      exact Nat.le_succ_of_le bounded
  · intro i
    have keys := clean.keys i
    show i ∈ s.ids ++ [s.allocID] ↔ _
    rw [List.mem_append, List.mem_singleton]
    refine ⟨?_, ?_⟩
    · rintro (earlier | rfl)
      · have other : i ≠ s.allocID := fun same => new (same ▸ earlier)
        have found := keys.mp earlier
        rwa [← (look i).trans (if_neg other)] at found
      · have found := (look s.allocID).trans (if_pos rfl)
        exact Option.isSome_iff_exists.mpr ⟨_, found⟩
    · intro found
      by_cases same : i = s.allocID
      · exact Or.inr same
      · have found : (({ s with idbase := s.allocID }.put s.allocID
          (.construct s.allocID acptptr garbage)).connections i).isSome = true := found
        rw [(look i).trans (if_neg same)] at found
        exact Or.inl (keys.mpr found)
  · show (s.ids ++ [s.allocID]).Nodup
    refine List.nodup_append.mpr ⟨clean.distinct, List.nodup_singleton _, ?_⟩
    rintro i earlier j there rfl
    exact new (List.mem_singleton.mp there ▸ earlier)
  · exact (look s.allocID).trans (if_pos rfl)

/-- `createConnection` hands out a connection that waits for a client. -/
theorem createConnection_handed {acptptr : Acceptor} {garbage : Nat → Byte} (clean : Clean s)
    (type : acptptr.type = httpConnection)
    (left : s.gc acptptr.type = [] → s.idbase < IDType.max) :
    Handed (s.createConnection acptptr garbage).2 (s.createConnection acptptr garbage).1 := by
  rw [createConnection]
  cases queue : s.gc acptptr.type with
  | nil => exact create_handed clean type (left queue)
  | cons id rest => exact reuse_handed clean type (type ▸ queue)

theorem acceptClient_live {fd : Nat} (idle : Idle c) : Live (acceptClient fd c) := by
  refine ⟨⟨?_, ?_⟩, ?_⟩
  · simp [acceptClient, NetSocket.setHandles, NetSocket.registerChannel, NetSocket.exist]
  · simp [acceptClient, NetSocket.setHandles, NetSocket.registerChannel, NetSocket.exist]
  · intro state
    cases idle.state.symm.trans state

/-- The client of a connection that was handed out is accepted. -/
theorem Handed.accept (handed : Handed s id) (fd : Nat) :
    Clean (s.modify id (acceptClient fd)) := by
  obtain ⟨c, there, idle⟩ := handed.idle
  rw [modify_eq there]
  exact handed.clean.put there handed.free (handed.clean.own id c there)
    (Or.inl (acceptClient_live idle))

/-- A connection that was handed out is given back. -/
theorem Handed.recycle (handed : Handed s id) : Clean (s.recycle id) := by
  obtain ⟨c, there, idle⟩ := handed.idle
  have own := handed.clean.own id c there
  have restarted : Idle c.restart := ⟨⟨rfl, rfl⟩, rfl⟩
  rw [ConnectionFactory.recycle, there]
  have replaced := @Clean.put s id c c.restart handed.clean there handed.free own
    (Or.inr restarted.gone)
  have found : (s.put id c.restart).connections id = some c.restart := by
    rw [put_connections, if_pos rfl]
  exact @Clean.push (s.put id c.restart) id c.restart replaced found handed.free restarted

theorem boundHandler_some {kind : CallbackKind} {handler : HttpHandler}
    (bound : s.boundHandler id kind = some (c, handler)) :
    s.connections id = some c ∧ c.sock.channelptr.isSome = true := by
  rw [boundHandler] at bound
  obtain ⟨d, there, bound⟩ := Option.bind_eq_some_iff.mp bound
  obtain ⟨channel, registered, bound⟩ := Option.bind_eq_some_iff.mp bound
  obtain ⟨h, _, same⟩ := Option.bind_eq_some_iff.mp bound
  cases same
  exact ⟨there, by rw [registered]; rfl⟩

/-- Callbacks are made for clients that are served, and these are in no queue. -/
theorem Clean.bound {kind : CallbackKind} {handler : HttpHandler} (clean : Clean s)
    (bound : s.boundHandler id kind = some (c, handler)) :
    s.connections id = some c ∧ Live c ∧ id ∉ s.gc httpConnection := by
  obtain ⟨there, registered⟩ := boundHandler_some bound
  have here : ¬ Gone c := by
    intro gone
    rw [gone.unregistered] at registered
    exact nomatch registered
  refine ⟨there, (clean.served id c there).resolve_right here, ?_⟩
  intro queued
  obtain ⟨d, found, idle⟩ := clean.idle id queued
  cases there.symm.trans found
  exact here idle.gone

/-- A call that settles keeps the queue clean. -/
theorem Clean.settle {o : Outcome} (clean : Clean s) (there : s.connections id = some c)
    (free : id ∉ s.gc httpConnection) (settled : Settled c s.gc o) :
    Clean { s.put id o.conn with gc := o.gc } := by
  obtain ⟨sameId, type⟩ := clean.own id c there
  cases settled with
  | kept same live fd queues =>
    rw [queues]
    refine clean.put there free ⟨same.id_.trans sameId, ?_⟩ (Or.inl live)
    rw [getType, same.acptptr]
    exact type
  | recycled same idle queues =>
    have own : o.conn.id_ = id ∧ o.conn.getType = httpConnection := by
      refine ⟨same.id_.trans sameId, ?_⟩
      rw [getType, same.acptptr]
      exact type
    have pushed : o.gc = o.conn.push s.gc := by
      rw [queues, HttpConnection.push, HttpConnection.push, type, own.2, own.1, sameId]
    rw [pushed]
    exact (clean.put there free own (Or.inr idle.gone)).push
      (show _ = some o.conn by rw [put_connections, if_pos rfl]) free idle

theorem timeout_settles {a : Answers} {o : Outcome} {gc : Gc}
    (done : c.handle .timeoutHandle a gc = some o) :
    Same c o.conn ∧ Gone o.conn ∧ o.gc = gc := by
  cases done
  exact ⟨⟨rfl, rfl⟩, ⟨rfl, rfl⟩, rfl⟩

/-- One step: contexts are granted, and identifiers are left. -/
theorem Clean.step {event : ServerEvent} (clean : Clean s) (genuine : Genuine s event)
    (granted : Granted s event) (left : IdsLeft s event) (steps : s.step event = some s') :
    Clean s' := by
  cases event with
  | accepted acptptr fd garbage =>
    cases steps
    exact (createConnection_handed clean genuine.1 left).accept fd
  | refused acptptr garbage =>
    cases steps
    exact (createConnection_handed clean genuine left).recycle
  | called id kind a =>
    obtain ⟨⟨c, handler⟩, bound, steps⟩ := Option.bind_eq_some_iff.mp steps
    obtain ⟨o, done, same⟩ := Option.bind_eq_some_iff.mp steps
    cases same
    obtain ⟨there, live, free⟩ := clean.bound bound
    by_cases timeout : handler = .timeoutHandle
    · rw [timeout] at done
      obtain ⟨same, gone, queues⟩ := timeout_settles done
      obtain ⟨sameId, type⟩ := clean.own id c there
      rw [queues]
      refine clean.put there free ⟨same.id_.trans sameId, ?_⟩ (Or.inr gone)
      rw [getType, same.acptptr]
      exact type
    · refine clean.settle there free (handle_settled live ?_ timeout done)
      exact fun read state enabled => granted c handler bound ⟨read, state, enabled⟩

/-- Every identifier is queued at most once, in the queue of its own type, and only while
the client socket of its connection is closed; no connection that serves a client is handed
out. -/
structure NoAliasing (s : ConnectionFactory) : Prop where
  once : ∀ type, (s.gc type).Nodup
  closed : ∀ type, ∀ id ∈ s.gc type, ∃ c, s.connections id = some c ∧ c.getType = type ∧
    c.sock.sockfd = none
  handsOut : ∀ acptptr garbage c, (s.gc acptptr.type = [] → s.idbase < IDType.max) →
    s.connections (s.createConnection acptptr garbage).1 = some c → c.sock.sockfd = none

/-- The steps of a run in which contexts are granted and identifiers are left. -/
def Sound (s : ConnectionFactory) (event : ServerEvent) : Prop :=
  Genuine s event ∧ Granted s event ∧ IdsLeft s event

theorem clean_of_sound (run : Reaches Sound s) : Clean s :=
  run.invariant clean_init fun clean allowed steps =>
    clean.step allowed.1 allowed.2.1 allowed.2.2 steps

theorem Clean.queued (clean : Clean s) {type : ConnectionType} (queued : id ∈ s.gc type) :
    type = httpConnection ∧ ∃ c, s.connections id = some c ∧ Idle c := by
  by_cases http : type = httpConnection
  · exact ⟨http, clean.idle id (http ▸ queued)⟩
  · rw [clean.others type http] at queued
    exact nomatch queued

/-- What a clean factory has queued no socket is bound to. -/
theorem Clean.noAliasing (clean : Clean s) : NoAliasing s where
  once := by
    intro type
    by_cases http : type = httpConnection
    · rw [http]
      exact clean.nodup
    · rw [clean.others type http]
      exact List.nodup_nil
  closed := by
    intro type id queued
    obtain ⟨http, c, there, idle⟩ := clean.queued queued
    exact ⟨c, there, (clean.own id c there).2.trans http.symm, idle.gone.closed⟩
  handsOut := by
    intro acptptr garbage c left there
    rw [createConnection] at there
    cases queue : s.gc acptptr.type with
    | nil =>
      rw [queue] at there
      exact nomatch (allocID_fresh clean (left queue)).2.symm.trans there
    | cons id rest =>
      rw [queue] at there
      have queued : id ∈ s.gc acptptr.type := by
        rw [queue]
        exact List.mem_cons_self
      obtain ⟨_, d, found, idle⟩ := clean.queued queued
      cases found.symm.trans there
      exact idle.gone.closed

/-- In every run. -/
theorem recycled_unaliased (run : Reaches Sound s) : NoAliasing s :=
  (clean_of_sound run).noAliasing

end

def silent : Answers where
  prepared := false
  accepted := .sctxIoError
  received := .failed none
  execution := ⟨[], 0⟩
  sent := .failed none
  shutdown := none
  disk := ⟨fun _ => none, fun _ => false, fun _ => none⟩

def zeros : Nat → Byte := fun _ => 0

def httpServer : Acceptor := ⟨httpConnection, false, []⟩

def httpsServer : Acceptor := ⟨httpConnection, true, []⟩

def oneClient (server : Acceptor) : ConnectionFactory := init.accepted server 16 zeros

theorem oneClient_reached {Allowed : ConnectionFactory → ServerEvent → Prop} {server : Acceptor}
    (allowed : Allowed init (.accepted server 16 zeros)) : Reaches Allowed (oneClient server) :=
  .next .start allowed rfl

theorem genuine_first {server : Acceptor} (type : server.type = httpConnection) :
    Genuine init (.accepted server 16 zeros) := by
  refine ⟨type, by decide, ?_⟩
  intro id c found
  cases found

/-- A client comes and goes, and its connection is queued once. -/
theorem one_client_unaliased :
    ∃ s, Reaches Sound s ∧ s.gc httpConnection = [1] ∧ NoAliasing s := by
  have first : Sound init (.accepted httpServer 16 zeros) :=
    ⟨genuine_first rfl, trivial, fun _ => by decide⟩
  have run : Reaches Sound (oneClient httpServer) := oneClient_reached first
  obtain ⟨s, steps, queue⟩ : ∃ s, (oneClient httpServer).step (.called 1 .rdhup silent) = some s ∧
      s.gc httpConnection = [1] := ⟨_, rfl, rfl⟩
  have next : Sound (oneClient httpServer) (.called 1 .rdhup silent) := by
    refine ⟨trivial, ?_, trivial⟩
    rintro c handler bound ⟨read, _, _⟩
    obtain ⟨d, rdhup⟩ : ∃ d, (oneClient httpServer).boundHandler 1 .rdhup =
        some (d, .rdhupHandle) := ⟨_, rfl⟩
    rw [read] at bound
    exact nomatch congrArg Prod.snd (Option.some.inj (rdhup.symm.trans bound))
  have reached := run.next next steps
  exact ⟨s, reached, queue, recycled_unaliased reached⟩

/-- A client whose SSL context could not be prepared is pushed twice. -/
theorem refused_context_aliases : ¬ ∀ s, Reaches Genuine s → NoAliasing s := by
  intro clean
  have run : Reaches Genuine (oneClient httpsServer) := oneClient_reached (genuine_first rfl)
  obtain ⟨s, steps, queue⟩ : ∃ s,
      (oneClient httpsServer).step (.called 1 .readable silent) = some s ∧
        s.gc httpConnection = [1, 1] := ⟨_, rfl, rfl⟩
  have genuine : Genuine (oneClient httpsServer) (.called 1 .readable silent) := trivial
  have once := (clean s (run.next genuine steps)).once httpConnection
  rw [queue] at once
  exact absurd once (by decide)

end ConnectionFactory
