import Tigerso.RequestHost

/-!
# http/HttpRequest: the port of a request

The scheme is looked for anywhere in a URL, and the port in front of the first slash behind it.
-/

open SystemCalls HttpMessage CText StringSearch RequestHost

namespace RequestPort

/-- What stands behind the port's colon in the `Host` header. -/
def headerPort (m : HttpMessage) : Bytes :=
  match findText (m.getValueByHeader (literal "host")) (literal ":") with
  | some pos => (m.getValueByHeader (literal "host")).drop (pos + 1)
  | none => literal "80"

def searched (url : Bytes) : Bytes :=
  match findText url (literal "http://") with
  | some pos => url.drop (pos + 7)
  | none =>
    match findText url (literal "https://") with
    | some pos => url.drop (pos + 8)
    | none => url

/-- A text that begins with a host and a port and goes on with a path. -/
def BeginsWithPort (s port : Bytes) : Prop :=
  ∃ host more, 58 ∉ host ∧ 47 ∉ host ∧ 47 ∉ port ∧ s = host ++ 58 :: port ++ 47 :: more

section
variable {o : MessageObject}

/-- The port is what stands between a colon and the next slash. -/
theorem portOfUrl_iff (url port : Bytes) :
    MessageObject.portOfUrl url = some port ↔ BeginsWithPort (searched url) port := by
  have cut : MessageObject.portOfUrl url = (do
      let pos ← findText (searched url) [47]
      let label ← findText ((searched url).take pos) [58]
      some (((searched url).take pos).drop (label + 1))) := rfl
  rw [cut]
  generalize searched url = s
  rw [findText_byte_eq]
  constructor
  · intro found
    split_ifs at found with slash
    · simp only [Option.bind_eq_bind, Option.bind_some, take_untilByte] at found
      rw [findText_byte_eq] at found
      split_ifs at found with colon
      · obtain ⟨more, whole⟩ := untilByte_split slash
        obtain ⟨p, front⟩ := untilByte_split colon
        have same : p = port := by
          rw [Option.bind_some, Option.some_inj, drop_untilByte front] at found
          exact found
        refine ⟨untilByte 58 (untilByte 47 s), more, notMem_untilByte 58 _, ?_, ?_, ?_⟩
        · intro there
          exact notMem_untilByte 47 s ((List.takeWhile_prefix _).subset there)
        · intro there
          refine notMem_untilByte 47 s ?_
          rw [front, same]
          exact List.mem_append_right _ (List.mem_cons_of_mem _ there)
        · rw [← same, ← front]
          exact whole
      · cases found
    · cases found
  · rintro ⟨host, more, hostColon, hostSlash, portSlash, rfl⟩
    have front : 47 ∉ host ++ 58 :: port := by simp [hostSlash, portSlash]
    rw [if_pos (by simp)]
    simp only [Option.bind_eq_bind, Option.bind_some, take_untilByte]
    rw [untilByte_append front, findText_byte hostColon, Option.bind_some]
    simp

/-- The port of a request that has none yet. -/
theorem getHostPort_eq (role : o.message.role = .httpRoleRequest) (fresh : o.port = []) :
    o.getHostPort.1 = (MessageObject.portOfUrl o.message.url).getD (headerPort o.message) := by
  rw [MessageObject.getHostPort, role]
  dsimp only
  rw [if_neg (by simp [fresh])]
  cases MessageObject.portOfUrl o.message.url <;> rfl

theorem getHostPort_kept (role : o.message.role = .httpRoleRequest) (kept : o.port ≠ []) :
    o.getHostPort.1 = o.port := by
  rw [MessageObject.getHostPort, role]
  dsimp only
  rw [if_pos kept]

theorem getHostPort_iff (role : o.message.role = .httpRoleRequest) (fresh : o.port = [])
    (port : Bytes) : o.getHostPort.1 = port ↔ BeginsWithPort (searched o.message.url) port ∨
      (∀ other, ¬ BeginsWithPort (searched o.message.url) other) ∧
        headerPort o.message = port := by
  rw [getHostPort_eq role fresh]
  simp only [← portOfUrl_iff]
  cases MessageObject.portOfUrl o.message.url <;> simp

end

/-- What a request can be made for. -/
inductive Target where
  | absolute (u : HostUrl) (schemed : u.scheme ≠ [])
  | authority (u : HostUrl) (bare : u.scheme = [] ∧ u.port.isSome = true ∧ u.path = [])
  | origin (rest : Bytes)

namespace Target

def text : Target → Bytes
  | absolute u _ => u.text
  | authority u _ => u.text
  | origin rest => 47 :: rest

def port : Target → Option Bytes
  | absolute u _ => u.port
  | authority u _ => u.port
  | origin _ => none

def path : Target → Bytes
  | absolute u _ => u.path
  | authority u _ => u.path
  | origin rest => 47 :: rest

end Target

/-- The port in the `Host` header; empty when there is none. -/
def writtenPort (m : HttpMessage) : Bytes :=
  ((m.getValueByHeader (literal "host")).dropWhile (· ≠ 58)).drop 1

namespace Target

def expected (t : Target) (m : HttpMessage) : Bytes :=
  t.port.getD (if writtenPort m = [] then literal "80" else writtenPort m)

/-- Another scheme is found than that of the URL. -/
def Misled : Target → Prop
  | absolute u _ => u.scheme = literal "https://" ∧ literal "http://" <:+: u.behindScheme
  | authority _ _ => False
  | origin rest => literal "http://" <:+: rest ∨ literal "https://" <:+: rest

/-- The port is seen in the URL. -/
def Shows (t : Target) (port : Bytes) : Prop :=
  t.Misled ∧ BeginsWithPort (searched t.text) port ∨
    ¬ t.Misled ∧ t.path ≠ [] ∧ t.port = some port

/-- The port can be told from the URL or, where the URL shows none, from the header. -/
def Told (t : Target) (m : HttpMessage) : Prop :=
  t.Shows (t.expected m) ∨ (∀ other, ¬ t.Shows other) ∧ headerPort m = t.expected m

end Target

section
variable {u : HostUrl} {port : Bytes}

/-- A URL that has a port and a path. -/
theorem beginsWithPort_iff (u : HostUrl) :
    BeginsWithPort u.behindScheme port ↔ u.path ≠ [] ∧ u.port = some port := by
  constructor
  · rintro ⟨host, more, hostColon, hostSlash, portSlash, whole⟩
    have front : 47 ∉ host ++ 58 :: port := by simp [hostSlash, portSlash]
    have authority : u.authority = host ++ 58 :: port := by
      rw [← u.untilSlash, whole, untilByte_append front]
    constructor
    · intro none_
      rw [HostUrl.behindScheme, none_, List.append_nil] at whole
      exact u.authority_clean (whole ▸ by simp)
    · rw [HostUrl.authority, HostUrl.portText] at authority
      cases named : u.port with
      | none =>
        rw [named, Option.elim_none, List.append_nil] at authority
        exact absurd (authority ▸ by simp) u.clean.1
      | some p =>
        rw [named, Option.elim_some] at authority
        rw [(split_inj u.clean.1 hostColon authority).2]
  · rintro ⟨some_, named⟩
    obtain none_ | ⟨rest, path⟩ := u.path_is
    · exact absurd none_ some_
    · refine ⟨u.host, rest, u.clean.1, u.clean.2, (u.port_is port named).2, ?_⟩
      rw [HostUrl.behindScheme, HostUrl.authority, HostUrl.portText, named, path]
      rfl

theorem not_beginsWithPort_slash (rest : Bytes) : ¬ BeginsWithPort (47 :: rest) port := by
  rintro ⟨host, more, _, hostSlash, _, whole⟩
  cases host with
  | nil => cases whole
  | cons b host =>
    obtain rfl := (List.cons.inj whole).1
    exact hostSlash List.mem_cons_self

theorem searched_unmarked {url : Bytes} (noHttp : ¬ literal "http://" <:+: url)
    (noHttps : ¬ literal "https://" <:+: url) : searched url = url := by
  rw [searched, findText_none_iff_infix.mpr noHttp]
  dsimp only
  rw [ findText_none_iff_infix.mpr noHttps]

theorem searched_http (rest : Bytes) : searched (literal "http://" ++ rest) = rest := by
  rw [searched, findText_zero_iff.mpr (List.prefix_append _ _)]
  rfl

/-- One scheme does not begin inside the other. -/
theorem http_infix_https {rest : Bytes}
    (there : literal "http://" <:+: literal "https://" ++ rest) : literal "http://" <:+: rest := by
  have http : literal "http://" = [104, 116, 116, 112, 58, 47, 47] := rfl
  have https : literal "https://" = [104, 116, 116, 112, 115, 58, 47, 47] := rfl
  rw [http, https] at there
  rw [http]
  simpa [List.infix_cons_iff] using there

theorem searched_https {rest : Bytes} (noHttp : ¬ literal "http://" <:+: rest) :
    searched (literal "https://" ++ rest) = rest := by
  have none_ : findText (literal "https://" ++ rest) (literal "http://") = none :=
    findText_none_iff_infix.mpr fun there => noHttp (http_infix_https there)
  rw [searched, none_]
  dsimp only
  rw [findText_zero_iff.mpr (List.prefix_append _ _)]
  rfl

end

namespace Target

variable {o : MessageObject} {m : HttpMessage}

/-- What is searched is the URL behind its scheme, or nothing of it. -/
theorem searched_text (t : Target) (straight : ¬ t.Misled) :
    (∃ u : HostUrl, searched t.text = u.behindScheme ∧ t.path = u.path ∧ t.port = u.port) ∨
      ∃ rest, searched t.text = 47 :: rest ∧ t.port = none := by
  cases t with
  | absolute u schemed =>
    refine Or.inl ⟨u, ?_, rfl, rfl⟩
    rw [text, HostUrl.text]
    obtain none_ | http | https := u.scheme_is
    · exact absurd none_ schemed
    · rw [http, searched_http]
    · rw [https]
      exact searched_https fun there => straight ⟨https, there⟩
  | authority u bare =>
    have whole : u.text = u.authority := by
      rw [HostUrl.text, HostUrl.behindScheme, bare.1, bare.2.2, List.nil_append, List.append_nil]
    refine Or.inl ⟨u, ?_, rfl, rfl⟩
    rw [text, HostUrl.behindScheme, bare.2.2, List.append_nil, whole]
    exact searched_unmarked (fun there => u.authority_clean (there.subset (by decide)))
      fun there => u.authority_clean (there.subset (by decide))
  | origin rest =>
    refine Or.inr ⟨rest, searched_unmarked (fun there => ?_) (fun there => ?_), rfl⟩
    · obtain begins | there := List.infix_cons_iff.mp there
      · exact absurd (List.cons_prefix_cons.mp begins).1 (by decide)
      · exact straight (Or.inl there)
    · obtain begins | there := List.infix_cons_iff.mp there
      · exact absurd (List.cons_prefix_cons.mp begins).1 (by decide)
      · exact straight (Or.inr there)

theorem shows_iff (t : Target) (port : Bytes) :
    BeginsWithPort (searched t.text) port ↔ t.Shows port := by
  rw [Shows]
  by_cases misled : t.Misled
  · rw [and_iff_right misled, or_iff_left fun wrong => wrong.1 misled]
  · rw [and_iff_right misled, or_iff_right fun wrong => misled wrong.1]
    obtain ⟨u, same, path, port⟩ | ⟨rest, same, port⟩ := t.searched_text misled
    · rw [same, path, port, beginsWithPort_iff]
    · rw [same, port]
      exact iff_of_false (not_beginsWithPort_slash rest) fun wrong => nomatch wrong.2

theorem expected_ne_nil (t : Target) : t.expected m ≠ [] := by
  have other : (if writtenPort m = [] then literal "80" else writtenPort m) ≠ [] := by
    split_ifs with none_
    · decide
    · exact none_
  rw [expected]
  cases named : t.port with
  | none => exact other
  | some p =>
    cases t with
    | absolute u _ => exact (u.port_is p named).1
    | authority u _ => exact (u.port_is p named).1
    | origin _ => cases named

/-- The port that is expected is returned exactly when it is kept already, or it is told. -/
theorem port_iff (role : o.message.role = .httpRoleRequest) (t : Target)
    (url : o.message.url = t.text) : o.getHostPort.1 = t.expected o.message ↔
      o.port = t.expected o.message ∨ o.port = [] ∧ t.Told o.message := by
  by_cases kept : o.port = []
  · have other : ¬ o.port = t.expected o.message := fun same =>
      t.expected_ne_nil (same.symm.trans kept)
    rw [getHostPort_iff role kept, url, and_iff_right kept, Told, or_iff_right other]
    simp only [shows_iff]
  · rw [getHostPort_kept role kept, or_iff_left fun wrong => kept wrong.1]

theorem not_shows_root {port : Bytes} : ¬ (origin []).Shows port := by
  rintro (⟨http | https, _⟩ | ⟨_, _, none_⟩)
  · exact absurd http (by decide)
  · exact absurd https (by decide)
  · cases none_

/-- From a `Host` header. -/
theorem port_of_origin :
    (withHostHeader (literal "a.b:8080")).getHostPort.1 = literal "8080" :=
  (port_iff rfl (.origin []) rfl).mpr (Or.inr ⟨rfl, Or.inr ⟨fun _ => not_shows_root, rfl⟩⟩)

/-- The URL of a `CONNECT` has no path. -/
theorem not_port : (askingFor portUrl.text).getHostPort.1 ≠
    (authority portUrl ⟨rfl, rfl, rfl⟩).expected (askingFor portUrl.text).message := by decide

end Target

end RequestPort
