import Tigerso.StringSearch

/-!
# http/HttpRequest: the host of a request

One byte more than the scheme is cut off a URL, and the cut is made twice.
-/

open SystemCalls HttpMessage CText StringSearch

namespace RequestHost

/-- What stands before the port in the `Host` header. -/
def headerHost (m : HttpMessage) : Bytes := untilByte 58 (m.getValueByHeader (literal "host"))

def schemeCut (url : Bytes) : Nat :=
  if literal "http://" <+: url then 8 else if literal "https://" <+: url then 9 else 0

/-- What is taken for the host when a colon counts among the first `stop` bytes only. -/
def cutHost (stop : Nat) (rest : Bytes) : Bytes :=
  if 58 ∈ rest.take stop then untilByte 58 rest else rest

/-- A host without a colon is what is left of a port. -/
theorem cutHost_eq_iff {host rest : Bytes} {stop : Nat} (clean : 58 ∉ host) :
    cutHost stop rest = host ↔ rest = host ∨ (host ++ [58] <+: rest ∧ host.length < stop) := by
  rw [cutHost]
  constructor
  · intro cut
    split_ifs at cut with there
    · obtain ⟨more, split⟩ := untilByte_split (List.mem_of_mem_take there)
      rw [cut] at split
      refine Or.inr ⟨⟨more, ?_⟩, ?_⟩
      · rw [split, List.append_assoc]
        rfl
      · by_contra short
        rw [split, List.take_append_of_le_length (by omega)] at there
        exact clean (List.mem_of_mem_take there)
    · exact Or.inl cut
  · rintro (rfl | ⟨⟨more, split⟩, long⟩)
    · exact if_neg fun there => clean (List.mem_of_mem_take there)
    · have shape : rest = host ++ 58 :: more := by
        rw [← split, List.append_assoc]
        rfl
      have there : 58 ∈ rest.take stop := by
        obtain ⟨k, size⟩ : ∃ k, stop = host.length + (k + 1) := ⟨stop - host.length - 1, by omega⟩
        rw [shape, size, List.take_length_add_append, List.take_succ_cons]
        exact List.mem_append_right _ List.mem_cons_self
      rw [if_pos there, shape, untilByte_append clean]

section
variable {o : MessageObject}

/-- The two calls of `substr`; the second one throws for a URL that is shorter than two schemes. -/
theorem hostOfUrl_eq (url : Bytes) :
    MessageObject.hostOfUrl url = if 2 * schemeCut url ≤ url.length then
      some (cutHost (untilByte 47 (url.drop (schemeCut url))).length
        (url.drop (2 * schemeCut url))) else none := by
  have beg : (if findText url (literal "http://") = some 0 then 8
      else if findText url (literal "https://") = some 0 then 9 else 0) = schemeCut url := by
    simp only [findText_zero_iff]
    rfl
  have slash (s : Bytes) : (findText s (literal "/")).getD s.length = (untilByte 47 s).length := by
    rw [show literal "/" = [47] from rfl, findText_byte_eq]
    split_ifs with there
    · rfl
    · rw [untilByte_clean there]
      rfl
  have colon (s : Bytes) : findText s (literal ":") =
      if 58 ∈ s then some (untilByte 58 s).length else none := findText_byte_eq s 58
  rw [MessageObject.hostOfUrl, beg]
  by_cases enough : 2 * schemeCut url ≤ url.length
  · have second : schemeCut url ≤ (url.drop (schemeCut url)).length := by
      rw [List.length_drop]
      omega
    rw [if_pos enough, substr, if_pos (by omega)]
    simp only [Option.bind_eq_bind, Option.bind_some, slash, colon]
    rw [substr, if_pos second, Option.bind_some, List.drop_drop, ← Nat.two_mul, cutHost]
    split_ifs with there
    · rw [untilByte_take there]
      exact congrArg some (take_untilByte 58 _)
    · rfl
  · rw [if_neg enough, substr]
    split_ifs with once
    · have second : ¬schemeCut url ≤ (url.drop (schemeCut url)).length := by
        rw [List.length_drop]
        omega
      simp only [Option.bind_eq_bind, Option.bind_some]
      rw [substr, if_neg second]
      rfl
    · rfl

/-- The first question; the answer is kept. -/
theorem getHost_eq (role : o.message.role = .httpRoleRequest) (fresh : o.host = []) :
    o.getHost = (if headerHost o.message = [] then MessageObject.hostOfUrl o.message.url
      else some (headerHost o.message)).map fun host => (host, { o with host := host }) := by
  have colon : findText (o.message.getValueByHeader (literal "host")) (literal ":") =
      if 58 ∈ o.message.getValueByHeader (literal "host") then
        some (headerHost o.message).length else none := findText_byte_eq _ 58
  have answer (host : Bytes) (named : host = headerHost o.message) :
      (do
        let host ← if host = [] then MessageObject.hostOfUrl o.message.url else some host
        some (host, { o with host := host })) =
      (if headerHost o.message = [] then MessageObject.hostOfUrl o.message.url
        else some (headerHost o.message)).map fun host => (host, { o with host := host }) := by
    rw [named]
    split_ifs
    · exact (Option.map_eq_bind ..).symm
    · rfl
  rw [MessageObject.getHost, role]
  dsimp only
  rw [if_neg (by simp [fresh]), colon]
  by_cases there : 58 ∈ o.message.getValueByHeader (literal "host")
  · rw [if_pos there]
    exact answer _ (take_untilByte 58 _)
  · rw [if_neg there]
    exact answer _ (untilByte_clean there).symm

theorem getHost_kept (role : o.message.role = .httpRoleRequest) (kept : o.host ≠ []) :
    o.getHost = some (o.host, o) := by
  rw [MessageObject.getHost, role]
  exact if_pos kept

/-- Two cuts of the URL are possible. -/
theorem twoCuts_iff (url : Bytes) : 2 * schemeCut url ≤ url.length ↔
    (literal "http://" <+: url → 16 ≤ url.length) ∧
      (literal "https://" <+: url → 18 ≤ url.length) := by
  rw [schemeCut]
  split_ifs with first second
  · have apart : ¬ literal "https://" <+: url := by
      intro second
      exact absurd (List.prefix_of_prefix_length_le first second (by decide)) (by decide)
    exact ⟨fun long => ⟨fun _ => long, fun second => absurd second apart⟩, fun both => both.1 first⟩
  · exact ⟨fun long => ⟨fun http => absurd http first, fun _ => long⟩, fun both => both.2 second⟩
  · refine ⟨fun _ => ⟨fun http => absurd http first, fun https => absurd https second⟩, fun _ => ?_⟩
    exact Nat.zero_le _

/-- The host of a request is returned exactly when it is kept already, or the `Host` header names
one, or the URL has no scheme, or it is long enough for two cuts. -/
theorem getHost_returns_iff (role : o.message.role = .httpRoleRequest) :
    o.getHost.isSome = true ↔ o.host ≠ [] ∨ headerHost o.message ≠ [] ∨
      (literal "http://" <+: o.message.url → 16 ≤ o.message.url.length) ∧
        (literal "https://" <+: o.message.url → 18 ≤ o.message.url.length) := by
  rw [← twoCuts_iff]
  by_cases kept : o.host = []
  · rw [getHost_eq role kept, Option.isSome_map]
    by_cases named : headerHost o.message = []
    · rw [if_pos named, hostOfUrl_eq]
      split_ifs with enough
      · exact iff_of_true rfl (Or.inr (Or.inr enough))
      · simp [kept, named, enough]
    · rw [if_neg named]
      exact iff_of_true rfl (Or.inr (Or.inl named))
  · rw [getHost_kept role kept]
    exact iff_of_true rfl (Or.inl kept)

end

def askingFor (url : Bytes) : MessageObject :=
  { MessageObject.construct .httpRoleRequest (fun _ => 0) 0 with
    message := { HttpMessage.construct .httpRoleRequest fun _ => 0 with url := url } }

/-- A URL without a scheme and a host. -/
theorem getHost_returns_origin : (askingFor (literal "/")).getHost.isSome = true :=
  (getHost_returns_iff rfl).mpr (Or.inr (Or.inr ⟨by decide, by decide⟩))

/-- The URL is too short for the second cut. -/
theorem getHost_throws : (askingFor (literal "http://a/")).getHost = none := rfl

/-- A URL with a host. -/
structure HostUrl where
  scheme : Bytes
  host : Bytes
  port : Option Bytes
  path : Bytes
  scheme_is : scheme = [] ∨ scheme = literal "http://" ∨ scheme = literal "https://"
  named : host ≠ []
  clean : 58 ∉ host ∧ 47 ∉ host
  port_is : ∀ p ∈ port, p ≠ [] ∧ 47 ∉ p
  path_is : path = [] ∨ ∃ rest, path = 47 :: rest

namespace HostUrl

def portText (u : HostUrl) : Bytes := u.port.elim [] (58 :: ·)

def authority (u : HostUrl) : Bytes := u.host ++ u.portText

def behindScheme (u : HostUrl) : Bytes := u.authority ++ u.path

def text (u : HostUrl) : Bytes := u.scheme ++ u.behindScheme

/-- What is behind the second cut begins with the host again. -/
def Repeats (u : HostUrl) : Prop :=
  u.behindScheme.drop (u.scheme.length + 2) = u.host ∨
    u.port.isSome = true ∧ u.host ++ [58] <+: u.behindScheme.drop (u.scheme.length + 2)

/-- The host can be told from the URL. -/
def Telling (u : HostUrl) : Prop :=
  if u.scheme = [] then u.port.isSome = true ∨ u.path = [] else u.Repeats

section
variable {u : HostUrl}

theorem authority_clean (u : HostUrl) : 47 ∉ u.authority := by
  rw [authority, portText, List.mem_append, not_or]
  refine ⟨u.clean.2, ?_⟩
  cases port : u.port with
  | none => exact List.not_mem_nil
  | some p =>
    intro there
    rcases List.mem_cons.mp there with wrong | there
    · cases wrong
    · exact (u.port_is p port).2 there

theorem untilSlash (u : HostUrl) : untilByte 47 u.behindScheme = u.authority := by
  rw [behindScheme]
  rcases u.path_is with none_ | ⟨rest, path⟩
  · rw [none_, List.append_nil, untilByte_clean u.authority_clean]
  · rw [path, untilByte_append u.authority_clean]

theorem no_scheme (u : HostUrl) (name : Bytes) (clean : 58 ∉ name ∧ 47 ∉ name) :
    ¬ name ++ literal "://" <+: u.behindScheme := by
  rintro ⟨rest, same⟩
  have front : 47 ∉ name ++ [58] := by simp [clean.2]
  have whole : name ++ [58] ++ 47 :: (47 :: rest) = u.behindScheme := by
    rw [← same]
    simp [literal]
  have authority : name ++ [58] = u.host ++ u.portText := by
    rw [← untilByte_append front (47 :: rest), whole, u.untilSlash]
    rfl
  rw [portText] at authority
  cases port : u.port with
  | none =>
    rw [port, Option.elim_none, List.append_nil] at authority
    exact u.clean.1 (authority ▸ List.mem_append_right _ (List.mem_singleton_self _))
  | some p =>
    rw [port, Option.elim_some] at authority
    exact (u.port_is p port).1 (split_inj clean.1 u.clean.1 authority).2.symm

/-- Only the scheme is one. -/
theorem schemeCut_eq (u : HostUrl) :
    schemeCut u.text = if u.scheme = [] then 0 else u.scheme.length + 1 := by
  rw [schemeCut, text]
  rcases u.scheme_is with none_ | http | https
  · have noHttp : ¬ literal "http://" <+: u.behindScheme :=
      u.no_scheme (literal "http") (by decide)
    have noHttps : ¬ literal "https://" <+: u.behindScheme :=
      u.no_scheme (literal "https") (by decide)
    rw [none_, List.nil_append, if_neg noHttp, if_neg noHttps, if_pos rfl]
  · rw [http, if_pos (List.prefix_append _ _), if_neg (by decide)]
    rfl
  · have noHttp : ¬ literal "http://" <+: literal "https://" ++ u.behindScheme := by
      intro wrong
      have short := List.prefix_of_prefix_length_le wrong (List.prefix_append _ _) (by decide)
      exact absurd short (by decide)
    rw [https, if_neg noHttp, if_pos (List.prefix_append _ _), if_neg (by decide)]
    rfl

theorem portText_length (u : HostUrl) : 1 < u.portText.length ↔ u.port.isSome = true := by
  rw [portText]
  cases port : u.port with
  | none => simp
  | some p =>
    have some_ := List.length_pos_iff.mpr (u.port_is p port).1
    simp [some_]

/-- The host without its first byte, and the port. -/
theorem untilSlash_tail (u : HostUrl) :
    (untilByte 47 (u.behindScheme.drop 1)).length = u.host.length + u.portText.length - 1 := by
  obtain ⟨b, more, first⟩ := List.exists_cons_of_ne_nil u.named
  have other : b ≠ 47 := by
    intro same
    exact u.clean.2 (first ▸ same ▸ List.mem_cons_self)
  have whole := u.untilSlash
  rw [behindScheme, authority, first, List.cons_append, List.cons_append] at whole ⊢
  rw [untilByte, List.takeWhile_cons, if_pos (by simpa using other)] at whole
  rw [List.drop_succ_cons, List.drop_zero, untilByte, (List.cons.inj whole).2]
  simp

theorem portText_pos (u : HostUrl) : 0 < u.portText.length ↔ u.port.isSome = true := by
  rw [portText]
  cases u.port <;> simp

/-- Without a scheme the host is found when there is a port, or no path. -/
theorem bare_iff (bare : u.scheme = []) :
    MessageObject.hostOfUrl u.text = some u.host ↔ u.port.isSome = true ∨ u.path = [] := by
  have text : u.text = u.host ++ (u.portText ++ u.path) := by
    rw [HostUrl.text, bare, behindScheme, authority, List.nil_append, List.append_assoc]
  rw [hostOfUrl_eq, schemeCut_eq, if_pos bare, if_pos (Nat.zero_le _), Option.some_inj,
    Nat.mul_zero, List.drop_zero, cutHost_eq_iff u.clean.1]
  constructor
  · rintro (whole | ⟨_, long⟩)
    · rw [text, List.append_right_eq_self, List.append_eq_nil_iff] at whole
      exact Or.inr whole.2
    · rw [HostUrl.text, bare, List.nil_append, u.untilSlash, authority, List.length_append] at long
      exact Or.inl (u.portText_pos.mp (by omega))
  · intro told
    cases port : u.port with
    | none =>
      have noPath : u.path = [] := by simpa [port] using told
      exact Or.inl (by rw [text, portText, port, noPath]; simp)
    | some p =>
      have there : 0 < u.portText.length := u.portText_pos.mpr (by rw [port]; rfl)
      refine Or.inr ⟨⟨p ++ u.path, ?_⟩, ?_⟩
      · rw [text, portText, port]
        simp
      · rw [HostUrl.text, bare, List.nil_append, u.untilSlash, authority, List.length_append]
        omega

theorem text_drop (u : HostUrl) (n : Nat) : u.text.drop (u.scheme.length + n) =
    u.behindScheme.drop n := List.drop_length_add_append ..

theorem schemed_iff (schemed : u.scheme ≠ []) :
    MessageObject.hostOfUrl u.text = some u.host ↔ u.Repeats := by
  have some_ := List.length_pos_iff.mpr u.named
  rw [hostOfUrl_eq, schemeCut_eq, if_neg schemed, text_drop, Repeats]
  rw [show 2 * (u.scheme.length + 1) = u.scheme.length + (u.scheme.length + 2) by omega, text_drop]
  have size : u.text.length = u.scheme.length + u.behindScheme.length := List.length_append
  split_ifs with enough
  · rw [Option.some_inj, cutHost_eq_iff u.clean.1, u.untilSlash_tail, ← u.portText_length,
      and_comm]
    refine or_congr_right (and_congr_left fun _ => ?_)
    omega
  · have behind : u.behindScheme.drop (u.scheme.length + 2) = [] :=
      List.drop_eq_nil_of_le (by omega)
    rw [behind]
    refine iff_of_false nofun ?_
    rintro (none_ | ⟨_, wrong⟩)
    · exact u.named none_.symm
    · simp at wrong

theorem hostOfUrl_iff (u : HostUrl) :
    MessageObject.hostOfUrl u.text = some u.host ↔ u.Telling := by
  rw [Telling]
  split_ifs with bare
  · exact bare_iff bare
  · exact schemed_iff bare

end

end HostUrl

/-- The host that is returned. -/
def Gives (o : MessageObject) (host : Bytes) : Prop := ∃ o', o.getHost = some (host, o')

/-- A URL that nothing is taken for the host of. -/
def Hostless (url : Bytes) : Prop :=
  2 * schemeCut url ≤ url.length ∧
    (url.drop (2 * schemeCut url) = [] ∨
      [58] <+: url.drop (2 * schemeCut url) ∧ ¬ [47] <+: url.drop (schemeCut url))

section
variable {o : MessageObject}

theorem hostless_iff (url : Bytes) : MessageObject.hostOfUrl url = some [] ↔ Hostless url := by
  rw [hostOfUrl_eq, Hostless]
  split_ifs with enough
  · rw [Option.some_inj, cutHost_eq_iff List.not_mem_nil, List.nil_append, List.length_nil]
    rw [and_iff_right enough]
    refine or_congr_right (and_congr_right fun colon => ?_)
    cases rest : url.drop (schemeCut url) with
    | nil =>
      have short := congrArg List.length rest
      have long := colon.length_le
      simp only [List.length_drop, List.length_nil, List.length_singleton] at short long
      omega
    | cons b more =>
      by_cases slash : b = 47 <;> simp [untilByte, slash, eq_comm]
  · exact iff_of_false (fun wrong => by cases wrong) fun wrong => enough wrong.1

theorem gives_kept (role : o.message.role = .httpRoleRequest) (kept : o.host ≠ [])
    (host : Bytes) : Gives o host ↔ o.host = host := by
  rw [Gives, getHost_kept role kept]
  constructor
  · rintro ⟨_, given⟩
    exact congrArg Prod.fst (Option.some.inj given)
  · rintro rfl
    exact ⟨o, rfl⟩

theorem gives_fresh (role : o.message.role = .httpRoleRequest) (fresh : o.host = [])
    (host : Bytes) : Gives o host ↔ (if headerHost o.message = [] then
      MessageObject.hostOfUrl o.message.url else some (headerHost o.message)) = some host := by
  rw [Gives, getHost_eq role fresh]
  constructor
  · rintro ⟨_, given⟩
    obtain ⟨_, found, same⟩ := Option.map_eq_some_iff.mp given
    rw [found]
    exact congrArg (some ∘ Prod.fst) same
  · intro found
    exact ⟨_, Option.map_eq_some_iff.mpr ⟨host, found, rfl⟩⟩

theorem gives_of_url (role : o.message.role = .httpRoleRequest) {u : HostUrl}
    (noHeader : o.message.getValueByHeader (literal "host") = []) (url : o.message.url = u.text) :
    Gives o u.host ↔ o.host = u.host ∨ o.host = [] ∧ u.Telling := by
  by_cases kept : o.host = []
  · have unnamed : headerHost o.message = [] := by
      rw [headerHost, noHeader]
      rfl
    rw [gives_fresh role kept, if_pos unnamed, url, u.hostOfUrl_iff, and_iff_right kept,
      or_iff_right (kept ▸ u.named.symm)]
  · rw [gives_kept role kept, or_iff_left fun wrong => kept wrong.1]

theorem gives_of_header (role : o.message.role = .httpRoleRequest) :
    Gives o (headerHost o.message) ↔ o.host ≠ [] ∧ o.host = headerHost o.message ∨
      o.host = [] ∧ (headerHost o.message ≠ [] ∨ Hostless o.message.url) := by
  by_cases kept : o.host = []
  · rw [gives_fresh role kept, and_iff_right kept, or_iff_right fun wrong => wrong.1 kept]
    split_ifs with unnamed
    · rw [unnamed, hostless_iff, or_iff_right fun wrong => wrong rfl]
    · exact iff_of_true rfl (Or.inl unnamed)
  · rw [gives_kept role kept, and_iff_right kept, or_iff_left fun wrong => kept wrong.1]

/-- The host in the URL of a request without a `Host` header is returned exactly when it is kept,
or the URL tells it; the host in the header is returned when there is one. -/
theorem host_iff (role : o.message.role = .httpRoleRequest) :
    (∀ u : HostUrl, o.message.getValueByHeader (literal "host") = [] →
      o.message.url = u.text →
      (Gives o u.host ↔ o.host = u.host ∨ o.host = [] ∧ u.Telling)) ∧
    (o.message.getValueByHeader (literal "host") ≠ [] →
      (Gives o (headerHost o.message) ↔ o.host ≠ [] ∧ o.host = headerHost o.message ∨
        o.host = [] ∧ (headerHost o.message ≠ [] ∨ Hostless o.message.url))) :=
  ⟨fun _ noHeader url => gives_of_url role noHeader url, fun _ => gives_of_header role⟩

end

/-- The URL of a `CONNECT`, say. -/
def portUrl : HostUrl where
  scheme := []
  host := literal "a.b"
  port := some (literal "443")
  path := []
  scheme_is := Or.inl rfl
  named := by decide
  clean := by decide
  port_is := by decide
  path_is := Or.inl rfl

def proxyUrl : HostUrl where
  scheme := literal "http://"
  host := literal "example.com"
  port := none
  path := literal "/"
  scheme_is := Or.inr (Or.inl rfl)
  named := by decide
  clean := by decide
  port_is := nofun
  path_is := Or.inr ⟨[], rfl⟩

def withHostHeader (value : Bytes) : MessageObject :=
  (askingFor (literal "/")).withMessage
    ((askingFor (literal "/")).message.setValueByHeader (literal "host") value)

/-- From the URL of a `CONNECT`, and from a `Host` header. -/
theorem host_of_connect : Gives (askingFor portUrl.text) (literal "a.b") ∧
    Gives (withHostHeader (literal "a.b:80")) (literal "a.b") := by
  constructor
  · exact ((host_iff rfl).1 portUrl rfl rfl).mpr (Or.inr ⟨rfl, Or.inl rfl⟩)
  · exact ((host_iff rfl).2 (by decide)).mpr (Or.inr ⟨rfl, Or.inl (by decide)⟩)

/-- The second cut leaves `om/`. -/
theorem not_host : ¬ Gives (askingFor proxyUrl.text) proxyUrl.host := by
  rintro ⟨_, given⟩
  have answer : (askingFor proxyUrl.text).getHost.map Prod.fst = some (literal "om/") := by decide
  rw [given] at answer
  have wrong : proxyUrl.host = literal "om/" := Option.some.inj answer
  exact absurd wrong (by decide)

end RequestHost
