import Tigerso.HeaderBlocks
import Tigerso.StartLineSteps
import Tigerso.SockAddr

/-!
# The start line of a message

Over a request line the parser reports the URL and knows the method and the version; over a status
line it reports the text and knows the code. Every method of the table is recognised, and a URL is
one when `parse_url_char` goes over it to an end of a URL.
-/

open SystemCalls

namespace HttpLib

variable {strict : Bool} {answer : Nat} {q : Parser} {cs : List Callback}

/-- What `s_req_method` makes of one more letter of a method. -/
def methodLetter (m : Method) (index : Nat) (ch : Byte) : Option Method :=
  if ch = 0 ∨ ch = sp then none
  else if (methodStrings m ++ [0])[index]? = some ch then some m
  else if ch = ascii '-' ∧ index = 1 ∧ m = .httpMkcol then some .httpMsearch
  else if isAlpha ch ∧ index < (methodStrings m ++ [0]).length then otherMethod m index ch
  else none

def methodLetters (m : Method) (index : Nat) : Bytes → Option Method
  | [] => some m
  | ch :: rest => (methodLetter m index ch).bind fun m => methodLetters m (index + 1) rest

/-- Every method is found by its letters. -/
theorem methodLetters_finds (m : Method) : ∃ first tail, methodStrings m = first :: tail ∧
    isAlpha first ∧ first ≠ cr ∧ first ≠ lf ∧ tail.length < 50 ∧
    (firstMethod first).bind (methodLetters · 1 tail) = some m := by
  cases m <;> exact ⟨_, _, rfl, by decide, by decide, by decide, by decide, by decide +kernel⟩

section
variable {r : Run} {ch expected : Byte} {m : Method}

theorem sReqMethod_space
    (found : (methodStrings r.parser.method ++ [0])[r.parser.index]? = some 0) :
    sReqMethod r sp = .next (r.updateState .sReqSpacesBeforeUrl).nextIndex 0 := by
  unfold sReqMethod
  rw [if_neg (by decide), found]
  exact if_pos ⟨rfl, rfl⟩

variable (some_ : ch ≠ 0) (other : ch ≠ sp)
include some_ other

theorem sReqMethod_same
    (found : (methodStrings r.parser.method ++ [0])[r.parser.index]? = some ch) :
    sReqMethod r ch = .next r.nextIndex 0 := by
  unfold sReqMethod
  rw [if_neg some_, found]
  exact (if_neg fun both => other both.1).trans (if_pos rfl)

variable (found : (methodStrings r.parser.method ++ [0])[r.parser.index]? = some expected)
  (differs : ch ≠ expected)
include found differs

theorem sReqMethod_changed (alpha : isAlpha ch = true)
    (changed : otherMethod r.parser.method r.parser.index ch = some m) :
    sReqMethod r ch = .next (r.setMethod m).nextIndex 0 := by
  unfold sReqMethod
  rw [if_neg some_, found, changed]
  exact (if_neg fun both => other both.1).trans ((if_neg differs).trans (if_pos alpha))

theorem sReqMethod_dash
    (dash : ch = ascii '-' ∧ r.parser.index = 1 ∧ r.parser.method = .httpMkcol) :
    sReqMethod r ch = .next (r.setMethod .httpMsearch).nextIndex 0 := by
  have alpha : ¬ (isAlpha ch = true) := by
    rw [dash.1]
    decide
  unfold sReqMethod
  rw [if_neg some_, found]
  exact (if_neg fun both => other both.1).trans
    ((if_neg differs).trans ((if_neg alpha).trans (if_pos dash)))

end

/-- One more letter of a method of the table. -/
theorem takes_letter {ch : Byte} {m : Method} (here : q.state = .sReqMethod)
    (small : q.index < 100) (short : q.nread < httpMaxHeaderSize)
    (letter : methodLetter q.method q.index ch = some m) :
    Takes strict answer (.clear q cs) [ch]
      (.clear { q with method := m, index := q.index + 1, nread := q.nread + 1 } cs) := by
  refine takes_clear (by rw [here]; rfl) short fun rest => ?_
  have turn : step strict answer (.clear { q with nread := q.nread + 1 } cs) ch rest =
      sReqMethod (.clear { q with nread := q.nread + 1 } cs) ch := by
    cases q
    cases here
    rfl
  have wraps : (q.index + 1) % 2 ^ 7 = q.index + 1 := Nat.mod_eq_of_lt (by omega)
  have next : ∀ m', (Run.clear { q with nread := q.nread + 1, method := m' } cs).nextIndex =
      .clear { q with method := m', index := q.index + 1, nread := q.nread + 1 } cs := by
    intro m'
    show Run.clear
      { q with method := m', index := (q.index + 1) % 2 ^ 7, nread := q.nread + 1 } cs = _
    rw [wraps]
  rw [turn]
  unfold methodLetter at letter
  by_cases zero : ch = 0 ∨ ch = sp
  · rw [if_pos zero] at letter
    cases letter
  · obtain ⟨other, space⟩ := not_or.mp zero
    rw [if_neg zero] at letter
    cases found : (methodStrings q.method ++ [0])[q.index]? with
    | none =>
      have behind : ¬ q.index < (methodStrings q.method ++ [0]).length :=
        Nat.not_lt.mpr (List.getElem?_eq_none_iff.mp found)
      rw [found, if_neg (by simp)] at letter
      by_cases dash : ch = ascii '-' ∧ q.index = 1 ∧ q.method = .httpMkcol
      · obtain ⟨-, index, method⟩ := dash
        rw [index, method] at found
        exact absurd found (by decide)
      · rw [if_neg dash, if_neg fun both => behind both.2] at letter
        cases letter
    | some expected =>
      have inside : q.index < (methodStrings q.method ++ [0]).length :=
        (List.getElem?_eq_some_iff.mp found).1
      rw [found] at letter
      by_cases same : ch = expected
      · rw [if_pos (congrArg some same.symm)] at letter
        obtain rfl := Option.some.inj letter
        obtain rfl := same
        exact (sReqMethod_same other space found).trans (congrArg (Step.next · 0) (next q.method))
      · rw [if_neg fun eq => same (Option.some.inj eq).symm] at letter
        by_cases dash : ch = ascii '-' ∧ q.index = 1 ∧ q.method = .httpMkcol
        · rw [if_pos dash] at letter
          obtain rfl := Option.some.inj letter
          exact (sReqMethod_dash other space found same dash).trans
            (congrArg (Step.next · 0) (next .httpMsearch))
        · rw [if_neg dash] at letter
          by_cases alpha : isAlpha ch = true
          · rw [if_pos ⟨alpha, inside⟩] at letter
            exact (sReqMethod_changed other space found same alpha letter).trans
              (congrArg (Step.next · 0) (next m))
          · rw [if_neg fun both => alpha both.1] at letter
            cases letter

/-- All letters, by induction. -/
theorem takes_letters {letters : Bytes} {m : Method} (here : q.state = .sReqMethod)
    (small : q.index + letters.length < 100)
    (short : q.nread + letters.length ≤ httpMaxHeaderSize)
    (read : methodLetters q.method q.index letters = some m) :
    Takes strict answer (.clear q cs) letters
      (.clear { q with
        method := m, index := q.index + letters.length,
        nread := q.nread + letters.length } cs) := by
  induction letters generalizing q with
  | nil =>
    obtain rfl := Option.some.inj read
    exact .nil
  | cons ch letters ih =>
    rw [List.length_cons] at small short ⊢
    obtain ⟨m₁, letter, read⟩ := Option.bind_eq_some_iff.mp read
    let q₁ : Parser := { q with method := m₁, index := q.index + 1, nread := q.nread + 1 }
    have first : Takes strict answer (.clear q cs) [ch] (.clear q₁ cs) :=
      takes_letter here (by omega) (by omega) letter
    have later : Takes strict answer (.clear q₁ cs) letters
        (.clear { q₁ with
          method := m, index := q₁.index + letters.length,
          nread := q₁.nread + letters.length } cs) :=
      ih here (by show q.index + 1 + letters.length < _; omega)
        (by show q.nread + 1 + letters.length ≤ _; omega) read
    have index : q.index + (letters.length + 1) = q.index + 1 + letters.length := by omega
    have nread : q.nread + (letters.length + 1) = q.nread + 1 + letters.length := by omega
    rw [index, nread]
    exact first.trans later

def Parser.asked (q : Parser) (m : Method) : Parser :=
  { q with
    flags := .zero, contentLength := ullongMax, method := m, index := (methodStrings m).length + 1
    state := .sReqSpacesBeforeUrl, nread := q.nread + (methodStrings m).length + 1 }

/-- The method and the space behind it. -/
theorem takes_method (m : Method) (here : q.state = .sStartReq)
    (short : q.nread + (methodStrings m).length < httpMaxHeaderSize) :
    Takes strict answer (.clear q cs) (methodStrings m ++ [sp])
      (.clear (q.asked m) (cs ++ [.onMessageBegin])) := by
  obtain ⟨first, tail, letters, alpha, isCr, isLf, small, finds⟩ := methodLetters_finds m
  obtain ⟨m₁, begins, read⟩ := Option.bind_eq_some_iff.mp finds
  have length : (methodStrings m).length = tail.length + 1 := congrArg List.length letters
  let q₁ : Parser := { q with
    flags := .zero, contentLength := ullongMax, method := m₁, index := 1, state := .sReqMethod
    nread := q.nread + 1 }
  let q₂ : Parser := { q₁ with
    method := m, index := 1 + tail.length, nread := q.nread + 1 + tail.length }
  have head : Takes strict answer (.clear q cs) [first] (.clear q₁ (cs ++ [.onMessageBegin])) := by
    refine takes_clear (by rw [here]; rfl) (by omega) fun rest => ?_
    have turn : step strict answer (.clear { q with nread := q.nread + 1 } cs) first rest =
        sStartReq (.clear { q with nread := q.nread + 1 } cs) first := by
      cases q
      cases here
      rfl
    rw [turn]
    unfold sStartReq
    rw [if_neg (not_or.mpr ⟨isCr, isLf⟩)]
    refine (if_neg (by simp [alpha])).trans ?_
    rw [begins]
    rfl
  have others : Takes strict answer (.clear q₁ (cs ++ [.onMessageBegin])) tail
      (.clear q₂ (cs ++ [.onMessageBegin])) :=
    takes_letters rfl (by show 1 + tail.length < _; omega)
      (by show q.nread + 1 + tail.length ≤ _; omega)
      read
  have behind : (methodStrings m ++ [0])[1 + tail.length]? = some 0 := by
    have same : 1 + tail.length = (methodStrings m).length := by omega
    rw [same]
    simp
  have space : Takes strict answer (.clear q₂ (cs ++ [.onMessageBegin])) [sp]
      (.clear (q.asked m) (cs ++ [.onMessageBegin])) := by
    refine takes_clear rfl (by show q.nread + 1 + tail.length < _; omega) fun rest => ?_
    have wraps : (1 + tail.length + 1) % 2 ^ 7 = (methodStrings m).length + 1 := by
      rw [Nat.mod_eq_of_lt (by omega), length]
      omega
    have total : q.nread + 1 + tail.length + 1 = q.nread + (methodStrings m).length + 1 := by omega
    have turn : step strict answer (.clear { q₂ with nread := q₂.nread + 1 }
      (cs ++ [.onMessageBegin]))
        sp rest =
          sReqMethod (.clear { q₂ with nread := q₂.nread + 1 } (cs ++ [.onMessageBegin])) sp :=
      rfl
    rw [turn, sReqMethod_space behind, Parser.asked, ← wraps, ← total]
    rfl
  rw [letters, List.cons_append]
  exact head.trans (others.trans space)

def State.endsUrl : State → Bool
  | .sReqServer => true
  | .sReqServerWithAt => true
  | .sReqPath => true
  | .sReqQueryStringStart => true
  | .sReqQueryString => true
  | .sReqFragmentStart => true
  | .sReqFragment => true
  | _ => false

def urlStart (m : Method) : State :=
  if m = .httpConnect then .sReqServerStart else .sReqSpacesBeforeUrl

/-- A URL for a method. -/
def IsUrl (strict : Bool) (m : Method) (url : Bytes) : Prop :=
  (url.foldl (parseUrlChar strict) (urlStart m)).endsUrl

theorem IsUrl.some_ {m : Method} {url : Bytes} (isUrl : IsUrl strict m url) : url ≠ [] := by
  rintro rfl
  have none_read : (urlStart m).endsUrl := isUrl
  unfold urlStart at none_read
  split_ifs at none_read
  all_goals cases none_read

theorem parseUrlChar_dead (strict : Bool) (url : Bytes) :
    url.foldl (parseUrlChar strict) .sDead = .sDead := by
  induction url with
  | nil => rfl
  | cons ch url ih =>
    have dead : parseUrlChar strict .sDead ch = .sDead := by
      unfold parseUrlChar
      split_ifs <;> rfl
    rw [List.foldl_cons, dead, ih]

theorem parseUrlChar_ends {s : State} {ch : Byte} (goes : parseUrlChar strict s ch ≠ .sDead) :
    ch ≠ sp ∧ ch ≠ cr ∧ ch ≠ lf := by
  refine ⟨?_, ?_, ?_⟩ <;> rintro rfl <;> exact goes (if_pos (by decide))

/-- A byte of a URL that does not end here. -/
theorem takes_urlChar {at_ : Bytes} {ch : Byte} (here : q.state.ofUrl)
    (short : q.nread < httpMaxHeaderSize)
    (goes : parseUrlChar strict q.state ch ≠ .sDead) :
    Takes strict answer (.marking q .url at_ cs) [ch]
      (.marking { q with state := parseUrlChar strict q.state ch, nread := q.nread + 1 } .url
        (at_ ++ [ch]) cs) := by
  obtain ⟨space, isCr, isLf⟩ := parseUrlChar_ends goes
  have head : parsingHeader q.state := by
    revert here
    cases q.state <;> first | exact fun _ => rfl | exact fun no => absurd no (by decide)
  have counted : (Run.marking q .url at_ cs).counted =
      .marking { q with nread := q.nread + 1 } .url at_ cs := Run.counted_head head short
  have plain : urlChar strict (.marking { q with nread := q.nread + 1 } .url at_ cs) ch =
      .next (.marking { q with state := parseUrlChar strict q.state ch, nread := q.nread + 1 } .url
        at_ cs) 0 := if_neg goes
  have turned : ∀ rest, step strict answer (Run.marking q .url at_ cs).counted ch ([] ++ rest) =
      .next (.marking { q with state := parseUrlChar strict q.state ch, nread := q.nread + 1 } .url
        at_ cs) 0 := by
    intro rest
    rw [counted, ← plain]
    have schema : sReqSchema strict (.marking { q with nread := q.nread + 1 } .url at_ cs) ch =
        urlChar strict (.marking { q with nread := q.nread + 1 } .url at_ cs) ch :=
      if_neg fun either => either.elim space fun either => either.elim isCr isLf
    have path : sReqPath strict (.marking { q with nread := q.nread + 1 } .url at_ cs) ch =
        urlChar strict (.marking { q with nread := q.nread + 1 } .url at_ cs) ch :=
      (if_neg space).trans (if_neg fun either => either.elim isCr isLf)
    obtain ⟨type, flags, state⟩ := q
    cases state
    all_goals first
      | exact schema
      | exact path
      | cases here
  have taken : Takes strict answer (.marking q .url at_ cs) [ch] ((Run.marking
      { q with state := parseUrlChar strict q.state ch, nread := q.nread + 1 } .url at_ cs).advance
        [ch]) := Takes.turn (fun _ => short) turned
  rwa [Run.marking_advance] at taken

/-- The bytes of a URL, by induction; `parse_url_char` goes from state to state. -/
theorem takes_urlChars {at_ url : Bytes} (here : q.state.ofUrl)
    (short : q.nread + url.length ≤ httpMaxHeaderSize)
    (goes : url.foldl (parseUrlChar strict) q.state ≠ .sDead) :
    Takes strict answer (.marking q .url at_ cs) url
      (.marking { q with
        state := url.foldl (parseUrlChar strict) q.state, nread := q.nread + url.length } .url
        (at_ ++ url) cs) := by
  induction url generalizing q at_ with
  | nil =>
    rw [List.append_nil]
    exact .nil
  | cons ch url ih =>
    rw [List.length_cons] at short ⊢
    rw [List.foldl_cons] at goes ⊢
    have alive : parseUrlChar strict q.state ch ≠ .sDead := by
      intro dead
      rw [dead, parseUrlChar_dead] at goes
      exact goes rfl
    let q₁ : Parser := { q with state := parseUrlChar strict q.state ch, nread := q.nread + 1 }
    have first : Takes strict answer (.marking q .url at_ cs) [ch]
      (.marking q₁ .url (at_ ++ [ch]) cs) :=
      takes_urlChar here (by omega) alive
    have ofUrl : q₁.state.ofUrl := (parseUrlChar_ofUrl strict q.state ch).resolve_left alive
    have later : Takes strict answer (.marking q₁ .url (at_ ++ [ch]) cs) url
        (.marking { q₁ with
          state := url.foldl (parseUrlChar strict) q₁.state, nread := q₁.nread + url.length } .url
          (at_ ++ [ch] ++ url) cs) :=
      ih ofUrl (by show q.nread + 1 + url.length ≤ _; omega) goes
    have nread : q.nread + (url.length + 1) = q.nread + 1 + url.length := by omega
    have bytes : at_ ++ ch :: url = at_ ++ [ch] ++ url := by simp
    rw [nread, bytes]
    exact first.trans later

/-- The URL and the space behind it. -/
theorem takes_url {url : Bytes} (here : q.state = .sReqSpacesBeforeUrl)
    (isUrl : IsUrl strict q.method url) (short : q.nread + url.length < httpMaxHeaderSize) :
    Takes strict answer (.clear q cs) (url ++ [sp])
      (.clear { q with state := .sReqHttpStart, nread := q.nread + url.length + 1 }
        (cs ++ [.onUrl url])) := by
  obtain ⟨ch, url, rfl⟩ := List.exists_cons_of_ne_nil isUrl.some_
  rw [List.length_cons] at short ⊢
  have ends : (url.foldl (parseUrlChar strict)
      (parseUrlChar strict (urlStart q.method) ch)).endsUrl := isUrl
  have goes : url.foldl (parseUrlChar strict) (parseUrlChar strict (urlStart q.method) ch) ≠
      .sDead := by
    intro dead
    rw [dead] at ends
    cases ends
  have alive : parseUrlChar strict (urlStart q.method) ch ≠ .sDead := by
    intro dead
    rw [dead, parseUrlChar_dead] at goes
    exact goes rfl
  let q₁ : Parser := { q with
    state := parseUrlChar strict (urlStart q.method) ch, nread := q.nread + 1 }
  let q₂ : Parser := { q₁ with
    state := url.foldl (parseUrlChar strict) q₁.state, nread := q₁.nread + url.length }
  have first : Takes strict answer (.clear q cs) [ch] (.marking q₁ .url [ch] cs) := by
    have turned : ∀ rest, step strict answer (Run.clear q cs).counted ch ([] ++ rest) =
        .next (.marking q₁ .url [] cs) 0 := by
      intro rest
      rw [step_clear (by rw [here]; rfl) (by omega)]
      have turn : step strict answer (.clear { q with nread := q.nread + 1 } cs) ch ([] ++ rest) =
          sReqSpacesBeforeUrl strict (.clear { q with nread := q.nread + 1 } cs) ch := by
        cases q
        cases here
        rfl
      have begins : (if q.method = .httpConnect then
          (Run.marking { q with nread := q.nread + 1 } .url [] cs).updateState .sReqServerStart
          else .marking { q with nread := q.nread + 1 } .url [] cs) =
          .marking { q with state := urlStart q.method, nread := q.nread + 1 } .url [] cs := by
        unfold urlStart
        split_ifs
        · rfl
        · rw [← here]
      rw [turn, sReqSpacesBeforeUrl, if_neg (parseUrlChar_ends alive).1]
      refine (congrArg (urlChar strict · ch) begins).trans ?_
      exact if_neg alive
    have taken : Takes strict answer (.clear q cs) [ch]
      ((Run.marking q₁ .url [] cs).advance [ch]) :=
      Takes.turn (fun _ => by show q.nread < httpMaxHeaderSize; omega) turned
    rwa [Run.marking_advance] at taken
  have others : Takes strict answer (.marking q₁ .url [ch] cs) url
      (.marking q₂ .url ([ch] ++ url) cs) :=
    takes_urlChars ((parseUrlChar_ofUrl strict _ ch).resolve_left alive)
      (by show q.nread + 1 + url.length ≤ _; omega) goes
  have space : Takes strict answer (.marking q₂ .url ([ch] ++ url) cs) [sp]
      (.clear { q₂ with state := .sReqHttpStart, nread := q₂.nread + 1 }
        (cs ++ [.onUrl ([ch] ++ url)])) := by
    have less : q₂.nread < httpMaxHeaderSize := by
      show q.nread + 1 + url.length < _
      omega
    have at_end : q₂.state.endsUrl := ends
    have head : parsingHeader q₂.state := by
      revert at_end
      cases q₂.state <;> first | exact fun _ => rfl | exact fun no => absurd no (by decide)
    have counted : (Run.marking q₂ .url ([ch] ++ url) cs).counted =
        .marking { q₂ with nread := q₂.nread + 1 } .url ([ch] ++ url) cs :=
      Run.counted_head head less
    have reported : ∀ q : Parser, (Run.marking q .url ([ch] ++ url) cs).callbackData .url =
        .clear q (cs ++ [.onUrl ([ch] ++ url)]) := by
      intro q
      have nothing_more : (Run.marking q .url ([ch] ++ url) cs).callbackData_ .url [] =
          .clear q (cs ++ [.onUrl ([ch] ++ url ++ [])]) := Run.marking_CALLBACK
      rwa [List.append_nil] at nothing_more
    have path : sReqPath strict (.marking { q₂ with nread := q₂.nread + 1 } .url
      ([ch] ++ url) cs) sp =
        .next (.clear { q₂ with state := .sReqHttpStart, nread := q₂.nread + 1 }
          (cs ++ [.onUrl ([ch] ++ url)])) 0 :=
      (if_pos rfl).trans (congrArg (Step.next · 0) (reported _))
    have turned : ∀ rest, step strict answer (Run.marking q₂ .url ([ch] ++ url) cs).counted sp
        ([] ++ rest) = .next (.clear { q₂ with state := .sReqHttpStart, nread := q₂.nread + 1 }
          (cs ++ [.onUrl ([ch] ++ url)])) 0 := by
      intro rest
      rw [counted, ← path]
      clear_value q₂
      obtain ⟨type, flags, state⟩ := q₂
      cases state
      all_goals first
        | rfl
        | cases at_end
    exact Takes.turn (fun _ => less) turned
  have total : q.nread + (url.length + 1) + 1 = q₂.nread + 1 := by
    show _ = q.nread + 1 + url.length + 1
    omega
  rw [total]
  exact first.trans (others.trans space)

/-- A turn that only goes to another state. -/
theorem takes_moves {s s' : State} {ch : Byte} (here : q.state = s) (head : parsingHeader s)
    (short : q.nread < httpMaxHeaderSize)
    (moves : ∀ (q : Parser) rest, q.state = s →
      step strict answer (.clear q cs) ch rest = .next (.clear { q with state := s' } cs) 0) :
    Takes strict answer (.clear q cs) [ch]
      (.clear { q with state := s', nread := q.nread + 1 } cs) :=
  takes_clear (by rw [here]; exact head) short fun rest => moves _ rest here

theorem expect_moves (q : Parser) (ch : Byte) (s : State) :
    expect strict (.clear q cs) ch ch s = .next (.clear { q with state := s } cs) 0 :=
  if_neg fun both => both.2 rfl

/-- A version of which only the last digit is not fixed. -/
def versionText (minor : Byte) : Bytes := literal "HTTP/1." ++ [minor]

/-- The version of a request, and the end of its line. -/
theorem takes_version {minor : Byte} (here : q.state = .sReqHttpStart) (digit : isNum minor)
    (short : q.nread + 10 ≤ httpMaxHeaderSize) :
    Takes strict answer (.clear q cs) (versionText minor ++ literal "\r\n")
      (.clear { q with
        httpMajor := 1, httpMinor := minor.toNat - 48, state := .sHeaderFieldStart
        nread := q.nread + 10 } cs) := by
  have h : Takes strict answer (.clear q cs) [ascii 'H']
      (.clear { q with state := .sReqHttpH, nread := q.nread + 1 } cs) :=
    takes_moves here rfl (by omega) fun q rest here => by
      cases q
      cases here
      rfl
  have t : Takes strict answer (.clear { q with state := .sReqHttpH, nread := q.nread + 1 } cs)
      [ascii 'T'] (.clear { q with state := .sReqHttpHT, nread := q.nread + 2 } cs) :=
    takes_clear rfl (by show q.nread + 1 < _; omega) fun rest => expect_moves _ _ _
  have t' : Takes strict answer (.clear { q with state := .sReqHttpHT, nread := q.nread + 2 } cs)
      [ascii 'T'] (.clear { q with state := .sReqHttpHTT, nread := q.nread + 3 } cs) :=
    takes_clear rfl (by show q.nread + 2 < _; omega) fun rest => expect_moves _ _ _
  have p : Takes strict answer (.clear { q with state := .sReqHttpHTT, nread := q.nread + 3 } cs)
      [ascii 'P'] (.clear { q with state := .sReqHttpHTTP, nread := q.nread + 4 } cs) :=
    takes_clear rfl (by show q.nread + 3 < _; omega) fun rest => expect_moves _ _ _
  have slash : Takes strict answer
      (.clear { q with state := .sReqHttpHTTP, nread := q.nread + 4 } cs) [ascii '/']
      (.clear { q with state := .sReqFirstHttpMajor, nread := q.nread + 5 } cs) :=
    takes_clear rfl (by show q.nread + 4 < _; omega) fun rest => expect_moves _ _ _
  have major : Takes strict answer
      (.clear { q with state := .sReqFirstHttpMajor, nread := q.nread + 5 } cs) [ascii '1']
      (.clear { q with httpMajor := 1, state := .sReqHttpMajor, nread := q.nread + 6 } cs) :=
    takes_clear rfl (by show q.nread + 5 < _; omega) fun rest => rfl
  have dot : Takes strict answer
      (.clear { q with httpMajor := 1, state := .sReqHttpMajor, nread := q.nread + 6 } cs)
      [ascii '.']
      (.clear { q with httpMajor := 1, state := .sReqFirstHttpMinor, nread := q.nread + 7 } cs) :=
    takes_clear rfl (by show q.nread + 6 < _; omega) fun rest => rfl
  have last : Takes strict answer
      (.clear { q with httpMajor := 1, state := .sReqFirstHttpMinor, nread := q.nread + 7 } cs)
      [minor]
      (.clear { q with
        httpMajor := 1, httpMinor := minor.toNat - 48, state := .sReqHttpMinor
        nread := q.nread + 8 } cs) :=
    takes_clear rfl (by show q.nread + 7 < _; omega) fun rest => if_neg (by simp [digit])
  have isCr : Takes strict answer
      (.clear { q with
        httpMajor := 1, httpMinor := minor.toNat - 48, state := .sReqHttpMinor
        nread := q.nread + 8 } cs) [cr]
      (.clear { q with
        httpMajor := 1, httpMinor := minor.toNat - 48, state := .sReqLineAlmostDone
        nread := q.nread + 9 } cs) :=
    takes_clear rfl (by show q.nread + 8 < _; omega) fun rest => rfl
  have isLf : Takes strict answer
      (.clear { q with
        httpMajor := 1, httpMinor := minor.toNat - 48, state := .sReqLineAlmostDone
        nread := q.nread + 9 } cs) [lf]
      (.clear { q with
        httpMajor := 1, httpMinor := minor.toNat - 48, state := .sHeaderFieldStart
        nread := q.nread + 10 } cs) :=
    takes_clear rfl (by show q.nread + 9 < _; omega) fun rest => rfl
  have text : literal "HTTP/1." = [ascii 'H'] ++ ([ascii 'T'] ++ ([ascii 'T'] ++ ([ascii 'P'] ++
      ([ascii '/'] ++ ([ascii '1'] ++ [ascii '.']))))) := by decide
  have crlf : literal "\r\n" = [cr] ++ [lf] := by decide
  rw [versionText, text, crlf]
  exact ((h.trans (t.trans (t'.trans (p.trans (slash.trans (major.trans dot)))))).trans last).trans
    (isCr.trans isLf)

def requestLine (m : Method) (url : Bytes) (minor : Byte) : Bytes :=
  methodStrings m ++ literal " " ++ url ++ literal " " ++ versionText minor ++ literal "\r\n"

theorem requestLine_length (m : Method) (url : Bytes) (minor : Byte) :
    (requestLine m url minor).length = (methodStrings m).length + url.length + 12 := by
  have space : (literal " ").length = 1 := by decide
  have crlf : (literal "\r\n").length = 2 := by decide
  have word : (literal "HTTP/1.").length = 7 := by decide
  simp only [requestLine, versionText, List.length_append, List.length_singleton, space, crlf, word]
  omega

/-- The parser behind a request line of `length` bytes. -/
def Parser.requested (q : Parser) (m : Method) (minor : Byte) (length : Nat) : Parser :=
  { q.asked m with
    httpMajor := 1, httpMinor := minor.toNat - 48, state := .sHeaderFieldStart
    nread := q.nread + length }

/-- A request line is taken whole, and its URL reported. -/
theorem takes_requestLine {m : Method} {url : Bytes} {minor : Byte} (here : q.state = .sStartReq)
    (isUrl : IsUrl strict m url) (digit : isNum minor)
    (short : q.nread + (requestLine m url minor).length ≤ httpMaxHeaderSize) :
    Takes strict answer (.clear q cs) (requestLine m url minor)
      (.clear (q.requested m minor (requestLine m url minor).length)
        (cs ++ [.onMessageBegin, .onUrl url])) := by
  have length := requestLine_length m url minor
  let q₁ : Parser := { q.asked m with
    state := .sReqHttpStart, nread := (q.asked m).nread + url.length + 1 }
  have asked : (q.asked m).nread = q.nread + (methodStrings m).length + 1 := rfl
  have nread : q₁.nread = (q.asked m).nread + url.length + 1 := rfl
  have method : Takes strict answer (.clear q cs) (methodStrings m ++ [sp])
      (.clear (q.asked m) (cs ++ [.onMessageBegin])) := takes_method m here (by omega)
  have target : Takes strict answer (.clear (q.asked m) (cs ++ [.onMessageBegin])) (url ++ [sp])
      (.clear q₁ (cs ++ [.onMessageBegin] ++ [.onUrl url])) := takes_url rfl isUrl (by omega)
  have version : Takes strict answer (.clear q₁ (cs ++ [.onMessageBegin] ++ [.onUrl url]))
      (versionText minor ++ literal "\r\n")
      (.clear { q₁ with
        httpMajor := 1, httpMinor := minor.toNat - 48, state := .sHeaderFieldStart
        nread := q₁.nread + 10 } (cs ++ [.onMessageBegin] ++ [.onUrl url])) :=
    takes_version rfl digit (by omega)
  have total : q.nread + (requestLine m url minor).length = q₁.nread + 10 := by omega
  have space : literal " " = [sp] := by decide
  have bytes : requestLine m url minor =
      (methodStrings m ++ [sp]) ++ ((url ++ [sp]) ++ (versionText minor ++ literal "\r\n")) := by
    simp only [requestLine, space, List.append_assoc]
  have reports : cs ++ [.onMessageBegin, .onUrl url] =
      cs ++ [.onMessageBegin] ++ [.onUrl url] := by simp
  rw [Parser.requested, total, bytes, reports]
  exact method.trans (target.trans version)

theorem decimalFrom_decimal (n : Nat) : decimalFrom 0 (decimal n) = n := by
  have same : ∀ ds : Bytes, decimalFrom 0 ds = ds.foldl (fun n c => 10 * n + (c.toNat - 48)) 0 := by
    intro ds
    have swap : (fun (n : Nat) (c : Byte) => n * 10 + (c.toNat - 48)) =
        fun n c => 10 * n + (c.toNat - 48) := by
      funext n c
      rw [Nat.mul_comm]
    rw [decimalFrom, swap]
  rw [same, decimal, SocketUtil.foldl_digits fun _ => SocketUtil.isDigit_of_mem]
  exact Nat.ofDigitChars_ten_toDigits

theorem isNum_decimal {n : Nat} {c : Byte} (inside : c ∈ decimal n) : isNum c := by
  have digit := SocketUtil.isdigit_decimal inside
  exact digit

/-- A turn inside of the text of a mark. -/
theorem takes_marked {m : Mark} {at_ : Bytes} {q' : Parser} {ch : Byte}
    (head : parsingHeader q.state)
    (short : q.nread < httpMaxHeaderSize)
    (turned : ∀ rest,
      step strict answer (.marking { q with nread := q.nread + 1 } m at_ cs) ch rest =
      .next (.marking q' m at_ cs) 0) :
    Takes strict answer (.marking q m at_ cs) [ch] (.marking q' m (at_ ++ [ch]) cs) := by
  have counted : (Run.marking q m at_ cs).counted =
    .marking { q with nread := q.nread + 1 } m at_ cs :=
    Run.counted_head head short
  have taken : Takes strict answer (.marking q m at_ cs) [ch]
      ((Run.marking q' m at_ cs).advance [ch]) :=
    Takes.turn (fun _ => short) fun rest => by
      rw [counted]
      exact turned _
  rwa [Run.marking_advance] at taken

/-- More digits of a status code. -/
theorem takes_digits {ds : Bytes} (here : q.state = .sResStatusCode) (digits : ∀ c ∈ ds, isNum c)
    (small : decimalFrom q.statusCode ds ≤ 999)
    (short : q.nread + ds.length ≤ httpMaxHeaderSize) :
    Takes strict answer (.clear q cs) ds
      (.clear { q with
        statusCode := decimalFrom q.statusCode ds, nread := q.nread + ds.length } cs) := by
  induction ds generalizing q with
  | nil => exact .nil
  | cons c ds ih =>
    rw [List.length_cons] at short ⊢
    let code : Nat := q.statusCode * 10 + (c.toNat - 48)
    have spelled : decimalFrom q.statusCode (c :: ds) = decimalFrom code ds := rfl
    rw [spelled] at small ⊢
    have at_most : code ≤ 999 := (le_decimalFrom code ds).trans small
    have wraps : code % 2 ^ 16 = code := Nat.mod_eq_of_lt (by omega)
    let q₁ : Parser := { q with statusCode := code, nread := q.nread + 1 }
    have first : Takes strict answer (.clear q cs) [c] (.clear q₁ cs) := by
      refine takes_clear (by rw [here]; rfl) (by omega) fun rest => ?_
      have turn : step strict answer (.clear { q with nread := q.nread + 1 } cs) c rest =
          sResStatusCode (.clear { q with nread := q.nread + 1 } cs) c := by
        cases q
        cases here
        rfl
      have set : (Run.clear { q with nread := q.nread + 1 } cs).setStatus (code % 2 ^ 16) =
          .clear q₁ cs := by
        rw [wraps]
        rfl
      have less : ¬ ((Run.clear { q with nread := q.nread + 1 } cs).setStatus
          (code % 2 ^ 16)).parser.statusCode > 999 := by
        rw [set]
        exact Nat.not_lt.mpr at_most
      rw [turn, sResStatusCode, if_neg (by simp [digits c List.mem_cons_self])]
      exact (if_neg less).trans (congrArg (Step.next · 0) set)
    have later : Takes strict answer (.clear q₁ cs) ds
        (.clear { q₁ with
          statusCode := decimalFrom q₁.statusCode ds, nread := q₁.nread + ds.length } cs) :=
      ih here (fun c inside => digits c (List.mem_cons_of_mem _ inside)) small
        (by show q.nread + 1 + ds.length ≤ _; omega)
    have nread : q.nread + (ds.length + 1) = q.nread + 1 + ds.length := by omega
    rw [nread]
    exact first.trans later

/-- A reason that can be sent. -/
structure IsReason (desc : Bytes) : Prop where
  some_ : desc ≠ []
  inLine : ∀ c ∈ desc, c ≠ cr ∧ c ≠ lf

/-- More of a reason. -/
theorem takes_reason {at_ desc : Bytes} (here : q.state = .sResStatus)
    (inLine : ∀ c ∈ desc, c ≠ cr ∧ c ≠ lf) (short : q.nread + desc.length ≤ httpMaxHeaderSize) :
    Takes strict answer (.marking q .status at_ cs) desc
      (.marking { q with nread := q.nread + desc.length } .status (at_ ++ desc) cs) := by
  induction desc generalizing q at_ with
  | nil =>
    rw [List.append_nil]
    exact .nil
  | cons c desc ih =>
    rw [List.length_cons] at short ⊢
    obtain ⟨isCr, isLf⟩ := inLine c List.mem_cons_self
    have first : Takes strict answer (.marking q .status at_ cs) [c]
        (.marking { q with nread := q.nread + 1 } .status (at_ ++ [c]) cs) := by
      refine takes_marked (by rw [here]; rfl) (by omega) fun rest => ?_
      cases q
      cases here
      exact (if_neg isCr).trans (if_neg isLf)
    have later : Takes strict answer (.marking { q with nread := q.nread + 1 } .status
      (at_ ++ [c]) cs)
        desc (.marking { q with nread := q.nread + 1 + desc.length } .status
          (at_ ++ [c] ++ desc) cs) :=
      ih here (fun c inside => inLine c (List.mem_cons_of_mem _ inside))
        (by show q.nread + 1 + desc.length ≤ _; omega)
    have nread : q.nread + (desc.length + 1) = q.nread + 1 + desc.length := by omega
    have bytes : at_ ++ c :: desc = at_ ++ [c] ++ desc := by simp
    rw [nread, bytes]
    exact first.trans later

/-- The word and the version of a response, up to the space. -/
theorem takes_responseVersion {minor : Byte} (here : q.state = .sStartRes) (digit : isNum minor)
    (short : q.nread + 9 ≤ httpMaxHeaderSize) :
    Takes strict answer (.clear q cs) (versionText minor ++ [sp])
      (.clear { q with
        flags := .zero, contentLength := ullongMax, httpMajor := 1, httpMinor := minor.toNat - 48
        state := .sResFirstStatusCode, nread := q.nread + 9 } (cs ++ [.onMessageBegin])) := by
  let q₀ : Parser := { q with flags := .zero, contentLength := ullongMax }
  let cs₀ : List Callback := cs ++ [.onMessageBegin]
  have h : Takes strict answer (.clear q cs) [ascii 'H']
      (.clear { q₀ with state := .sResH, nread := q.nread + 1 } cs₀) :=
    takes_clear (by rw [here]; rfl) (by omega) fun rest => by
      cases q
      cases here
      rfl
  have t : Takes strict answer (.clear { q₀ with state := .sResH, nread := q.nread + 1 } cs₀)
      [ascii 'T'] (.clear { q₀ with state := .sResHT, nread := q.nread + 2 } cs₀) :=
    takes_clear rfl (by show q.nread + 1 < _; omega) fun rest => expect_moves _ _ _
  have t' : Takes strict answer (.clear { q₀ with state := .sResHT, nread := q.nread + 2 } cs₀)
      [ascii 'T'] (.clear { q₀ with state := .sResHTT, nread := q.nread + 3 } cs₀) :=
    takes_clear rfl (by show q.nread + 2 < _; omega) fun rest => expect_moves _ _ _
  have p : Takes strict answer (.clear { q₀ with state := .sResHTT, nread := q.nread + 3 } cs₀)
      [ascii 'P'] (.clear { q₀ with state := .sResHTTP, nread := q.nread + 4 } cs₀) :=
    takes_clear rfl (by show q.nread + 3 < _; omega) fun rest => expect_moves _ _ _
  have slash : Takes strict answer
      (.clear { q₀ with state := .sResHTTP, nread := q.nread + 4 } cs₀) [ascii '/']
      (.clear { q₀ with state := .sResFirstHttpMajor, nread := q.nread + 5 } cs₀) :=
    takes_clear rfl (by show q.nread + 4 < _; omega) fun rest => expect_moves _ _ _
  have major : Takes strict answer
      (.clear { q₀ with state := .sResFirstHttpMajor, nread := q.nread + 5 } cs₀) [ascii '1']
      (.clear { q₀ with httpMajor := 1, state := .sResHttpMajor, nread := q.nread + 6 } cs₀) :=
    takes_clear rfl (by show q.nread + 5 < _; omega) fun rest => rfl
  have dot : Takes strict answer
      (.clear { q₀ with httpMajor := 1, state := .sResHttpMajor, nread := q.nread + 6 } cs₀)
      [ascii '.']
      (.clear { q₀ with httpMajor := 1, state := .sResFirstHttpMinor, nread := q.nread + 7 } cs₀) :=
    takes_clear rfl (by show q.nread + 6 < _; omega) fun rest => rfl
  have last : Takes strict answer
      (.clear { q₀ with httpMajor := 1, state := .sResFirstHttpMinor, nread := q.nread + 7 } cs₀)
      [minor]
      (.clear { q₀ with
        httpMajor := 1, httpMinor := minor.toNat - 48, state := .sResHttpMinor
        nread := q.nread + 8 } cs₀) :=
    takes_clear rfl (by show q.nread + 7 < _; omega) fun rest => if_neg (by simp [digit])
  have space : Takes strict answer
      (.clear { q₀ with
        httpMajor := 1, httpMinor := minor.toNat - 48, state := .sResHttpMinor
        nread := q.nread + 8 } cs₀) [sp]
      (.clear { q₀ with
        httpMajor := 1, httpMinor := minor.toNat - 48, state := .sResFirstStatusCode
        nread := q.nread + 9 } cs₀) :=
    takes_clear rfl (by show q.nread + 8 < _; omega) fun rest => rfl
  have text : literal "HTTP/1." = [ascii 'H'] ++ ([ascii 'T'] ++ ([ascii 'T'] ++ ([ascii 'P'] ++
      ([ascii '/'] ++ ([ascii '1'] ++ [ascii '.']))))) := by decide
  rw [versionText, text]
  exact ((h.trans (t.trans (t'.trans (p.trans (slash.trans (major.trans dot)))))).trans last).trans
    space

/-- The status code and the space behind it. -/
theorem takes_code {code : Nat} (here : q.state = .sResFirstStatusCode) (small : code ≤ 999)
    (short : q.nread + (decimal code).length < httpMaxHeaderSize) :
    Takes strict answer (.clear q cs) (decimal code ++ [sp])
      (.clear { q with
        statusCode := code, state := .sResStatusStart
        nread := q.nread + (decimal code).length + 1 } cs) := by
  have spelled : decimalFrom 0 (decimal code) = code := decimalFrom_decimal code
  obtain ⟨c, ds, split⟩ := List.exists_cons_of_ne_nil (SocketUtil.decimal_ne_nil code)
  have digits : ∀ b ∈ c :: ds, isNum b := fun b inside => isNum_decimal (split ▸ inside)
  rw [split] at spelled short ⊢
  rw [List.length_cons] at short ⊢
  have spelled : decimalFrom (c.toNat - 48) ds = code := by simpa [decimalFrom] using spelled
  let q₁ : Parser := { q with
    statusCode := c.toNat - 48, state := .sResStatusCode, nread := q.nread + 1 }
  have first : Takes strict answer (.clear q cs) [c] (.clear q₁ cs) := by
    refine takes_clear (by rw [here]; rfl) (by omega) fun rest => ?_
    cases q
    cases here
    exact if_neg (by simp [digits c List.mem_cons_self])
  have others : Takes strict answer (.clear q₁ cs) ds
      (.clear { q₁ with
        statusCode := decimalFrom q₁.statusCode ds, nread := q₁.nread + ds.length } cs) :=
    takes_digits rfl (fun b inside => digits b (List.mem_cons_of_mem _ inside))
      (by show decimalFrom (c.toNat - 48) ds ≤ 999; omega)
      (by show q.nread + 1 + ds.length ≤ _; omega)
  have space : Takes strict answer
      (.clear { q₁ with
        statusCode := decimalFrom q₁.statusCode ds, nread := q₁.nread + ds.length } cs) [sp]
      (.clear { q₁ with
        statusCode := decimalFrom q₁.statusCode ds, state := .sResStatusStart
        nread := q₁.nread + ds.length + 1 } cs) :=
    takes_clear rfl (by show q.nread + 1 + ds.length < _; omega) fun rest => rfl
  have nread : q.nread + (ds.length + 1) + 1 = q₁.nread + ds.length + 1 := by
    show _ = q.nread + 1 + ds.length + 1
    omega
  rw [nread, ← spelled]
  exact first.trans (others.trans space)

/-- The reason and the end of its line. -/
theorem takes_reasonLine {desc : Bytes} (here : q.state = .sResStatusStart)
    (isReason : IsReason desc)
    (short : q.nread + desc.length + 2 ≤ httpMaxHeaderSize) :
    Takes strict answer (.clear q cs) (desc ++ literal "\r\n")
      (.clear { q with
        index := 0, state := .sHeaderFieldStart, nread := q.nread + desc.length + 2 }
        (cs ++ [.onStatus desc])) := by
  obtain ⟨c, desc, rfl⟩ := List.exists_cons_of_ne_nil isReason.some_
  rw [List.length_cons] at short ⊢
  obtain ⟨isCr, isLf⟩ := isReason.inLine c List.mem_cons_self
  let q₁ : Parser := { q with index := 0, state := .sResStatus, nread := q.nread + 1 }
  have first : Takes strict answer (.clear q cs) [c] (.marking q₁ .status [c] cs) := by
    have turned : ∀ rest, step strict answer (Run.clear q cs).counted c ([] ++ rest) =
        .next (.marking q₁ .status [] cs) 0 := by
      intro rest
      rw [step_clear (by rw [here]; rfl) (by omega)]
      cases q
      cases here
      exact (if_neg isCr).trans (if_neg isLf)
    have taken : Takes strict answer (.clear q cs) [c]
      ((Run.marking q₁ .status [] cs).advance [c]) :=
      Takes.turn (fun _ => by show q.nread < httpMaxHeaderSize; omega) turned
    rwa [Run.marking_advance] at taken
  have others : Takes strict answer (.marking q₁ .status [c] cs) desc
      (.marking { q₁ with nread := q₁.nread + desc.length } .status ([c] ++ desc) cs) :=
    takes_reason rfl (fun b inside => isReason.inLine b (List.mem_cons_of_mem _ inside))
      (by show q.nread + 1 + desc.length ≤ _; omega)
  have ends : Takes strict answer
      (.marking { q₁ with nread := q₁.nread + desc.length } .status ([c] ++ desc) cs) [cr]
      (.clear { q₁ with state := .sResLineAlmostDone, nread := q₁.nread + desc.length + 1 }
        (cs ++ [.onStatus ([c] ++ desc)])) := by
    have less : q₁.nread + desc.length < httpMaxHeaderSize := by
      show q.nread + 1 + desc.length < _
      omega
    have reported : ∀ q : Parser, (Run.marking q .status ([c] ++ desc) cs).callbackData .status =
        .clear q (cs ++ [.onStatus ([c] ++ desc)]) := by
      intro q
      have nothing_more : (Run.marking q .status ([c] ++ desc) cs).callbackData_ .status [] =
          .clear q (cs ++ [.onStatus ([c] ++ desc ++ [])]) := Run.marking_CALLBACK
      rwa [List.append_nil] at nothing_more
    have counted : (Run.marking { q₁ with nread := q₁.nread + desc.length } .status ([c] ++ desc)
        cs).counted =
          .marking { q₁ with nread := q₁.nread + desc.length + 1 } .status ([c] ++ desc) cs :=
      Run.counted_head rfl less
    have turned : ∀ rest,
      step strict answer (Run.marking { q₁ with nread := q₁.nread + desc.length }
        .status ([c] ++ desc) cs).counted cr ([] ++ rest) =
        .next (.clear { q₁ with state := .sResLineAlmostDone, nread := q₁.nread + desc.length + 1 }
          (cs ++ [.onStatus ([c] ++ desc)])) 0 := by
      intro rest
      rw [counted]
      exact congrArg (Step.next · 0) (reported _)
    exact Takes.turn (fun _ => less) turned
  have last : Takes strict answer
      (.clear { q₁ with state := .sResLineAlmostDone, nread := q₁.nread + desc.length + 1 }
        (cs ++ [.onStatus ([c] ++ desc)])) [lf]
      (.clear { q₁ with state := .sHeaderFieldStart, nread := q₁.nread + desc.length + 2 }
        (cs ++ [.onStatus ([c] ++ desc)])) :=
    takes_clear rfl (by show q.nread + 1 + desc.length + 1 < _; omega) fun rest =>
      expect_moves _ _ _
  have nread : q.nread + (desc.length + 1) + 2 = q₁.nread + desc.length + 2 := by
    show _ = q.nread + 1 + desc.length + 2
    omega
  have crlf : literal "\r\n" = [cr] ++ [lf] := by decide
  rw [nread, crlf]
  exact first.trans (others.trans (ends.trans last))

def statusLine (minor : Byte) (code : Nat) (desc : Bytes) : Bytes :=
  versionText minor ++ literal " " ++ decimal code ++ literal " " ++ desc ++ literal "\r\n"

/-- The parser behind a status line of `length` bytes. -/
def Parser.responded (q : Parser) (minor : Byte) (code length : Nat) : Parser :=
  { q with
    flags := .zero, contentLength := ullongMax, httpMajor := 1, httpMinor := minor.toNat - 48
    statusCode := code, index := 0, state := .sHeaderFieldStart, nread := q.nread + length }

/-- A status line is taken whole, and its text reported. -/
theorem takes_statusLine {minor : Byte} {code : Nat} {desc : Bytes} (here : q.state = .sStartRes)
    (digit : isNum minor) (small : code ≤ 999) (isReason : IsReason desc)
    (short : q.nread + (statusLine minor code desc).length ≤ httpMaxHeaderSize) :
    Takes strict answer (.clear q cs) (statusLine minor code desc)
      (.clear (q.responded minor code (statusLine minor code desc).length)
        (cs ++ [.onMessageBegin, .onStatus desc])) := by
  have space : literal " " = [sp] := by decide
  have crlf : (literal "\r\n").length = 2 := by decide
  have word : (literal "HTTP/1.").length = 7 := by decide
  have bytes : statusLine minor code desc =
      (versionText minor ++ [sp]) ++ ((decimal code ++ [sp]) ++ (desc ++ literal "\r\n")) := by
    simp only [statusLine, space, List.append_assoc]
  have length : (statusLine minor code desc).length =
      9 + ((decimal code).length + 1) + (desc.length + 2) := by
    rw [bytes]
    simp only [versionText, List.length_append, List.length_singleton, crlf, word]
    omega
  let q₁ : Parser := { q with
    flags := .zero, contentLength := ullongMax, httpMajor := 1, httpMinor := minor.toNat - 48
    state := .sResFirstStatusCode, nread := q.nread + 9 }
  let q₂ : Parser := { q₁ with
    statusCode := code, state := .sResStatusStart
    nread := q₁.nread + (decimal code).length + 1 }
  have nread₁ : q₁.nread = q.nread + 9 := rfl
  have nread₂ : q₂.nread = q₁.nread + (decimal code).length + 1 := rfl
  have version : Takes strict answer (.clear q cs) (versionText minor ++ [sp])
      (.clear q₁ (cs ++ [.onMessageBegin])) := takes_responseVersion here digit (by omega)
  have status : Takes strict answer (.clear q₁ (cs ++ [.onMessageBegin])) (decimal code ++ [sp])
      (.clear q₂ (cs ++ [.onMessageBegin])) := takes_code rfl small (by omega)
  have reason : Takes strict answer (.clear q₂ (cs ++ [.onMessageBegin])) (desc ++ literal "\r\n")
      (.clear { q₂ with
        index := 0, state := .sHeaderFieldStart, nread := q₂.nread + desc.length + 2 }
        (cs ++ [.onMessageBegin] ++ [.onStatus desc])) := takes_reasonLine rfl isReason (by omega)
  have total : q.nread + (statusLine minor code desc).length = q₂.nread + desc.length + 2 := by
    omega
  have reports : cs ++ [.onMessageBegin, .onStatus desc] =
      cs ++ [.onMessageBegin] ++ [.onStatus desc] := by simp
  rw [Parser.responded, total, bytes, reports]
  exact version.trans (status.trans reason)

end HttpLib
