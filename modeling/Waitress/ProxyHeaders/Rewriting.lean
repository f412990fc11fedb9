import Waitress.ProxyHeaders.Reading

/-!
# What the proxy headers do to the environment

The environment after the call, as a function of what the headers come to, and
the exceptions that may leave the call.
-/

namespace Waitress.ProxyHeaders

open Raising

/-! ### The host -/

section Host

variable {environ after : Environ} {start out : Collected}

def NeedsScheme (start : Collected) : Prop :=
  start.forwardedHost ≠ [] ∧ hasPort start.forwardedHost = false ∧
    start.forwardedPort ∈ ["443".toList, "80".toList]

/-- The port of the host is trusted over the others. -/
def withHostPort (start : Collected) : Collected :=
  if hasPort start.forwardedHost = true then
    { start with forwardedPort := (Str.rsplit ':' start.forwardedHost).2 }
  else start

def setHost (start : Collected) (environ : Environ) : Environ :=
  let host := start.forwardedHost
  if host = [] then environ
  else if hasPort host = true then
    (environ.set "SERVER_NAME".toList (Str.strip (Str.rsplit ':' host).1)).set
      "HTTP_HOST".toList host
  else
    ((environ.set "SERVER_NAME".toList host).set "HTTP_HOST".toList host).set "HTTP_HOST".toList
      (hostWithPort host start.forwardedPort (environ.getD "wsgi.url_scheme".toList []))

theorem hasPort_nil : hasPort [] = false := rfl

theorem hostWithPort_congr {host port : Str} (other : port ∉ ["443".toList, "80".toList])
    (scheme scheme' : Str) : hostWithPort host port scheme = hostWithPort host port scheme' := by
  rw [hostWithPort, hostWithPort]
  split
  · rfl
  · rw [if_pos (.inl other), if_pos (.inl other)]

theorem exec_applyHost_ok_iff :
    exec (applyHost start) environ = (.ok out, after) ↔
      (NeedsScheme start → ∃ scheme, environ.get? "wsgi.url_scheme".toList = some scheme) ∧
      out = withHostPort start ∧ after = setHost start environ := by
  rw [applyHost, withHostPort, setHost, NeedsScheme]
  by_cases noHost : start.forwardedHost = []
  · rw [if_pos noHost, exec_pure, noHost, hasPort_nil, if_neg Bool.false_ne_true, if_pos rfl]
    constructor
    · rintro ⟨⟩
      exact ⟨fun needs => absurd rfl needs.1, rfl, rfl⟩
    · rintro ⟨-, rfl, rfl⟩
      rfl
  rw [if_neg noHost, if_neg noHost]
  by_cases withPort : hasPort start.forwardedHost = true
  · rw [if_pos withPort, if_pos withPort, if_pos withPort]
    dsimp only
    rw [exec_modify_bind, exec_pure]
    constructor
    · rintro ⟨⟩
      refine ⟨fun needs => ?_, rfl, rfl⟩
      rw [withPort] at needs
      cases needs.2.1
    · rintro ⟨-, rfl, rfl⟩
      rfl
  rw [if_neg withPort, if_neg withPort, if_neg withPort, exec_modify_bind]
  have noPort : hasPort start.forwardedHost = false := Bool.not_eq_true _ ▸ withPort
  have scheme : ((environ.set "SERVER_NAME".toList start.forwardedHost).set "HTTP_HOST".toList
      start.forwardedHost).get? "wsgi.url_scheme".toList =
      environ.get? "wsgi.url_scheme".toList := by
    rw [Dict.get?_set, if_neg (by decide), Dict.get?_set, if_neg (by decide)]
  by_cases implied : start.forwardedPort ∈ ["443".toList, "80".toList]
  · rw [if_pos implied, urlScheme, exec_bind, exec_get_bind, scheme]
    cases given : environ.get? "wsgi.url_scheme".toList with
    | none =>
        constructor
        · intro result
          cases (Prod.mk.inj result).1
        · rintro ⟨present, -⟩
          obtain ⟨_, ⟨⟩⟩ := present ⟨noHost, noPort, implied⟩
    | some value =>
        dsimp only
        rw [exec_pure]
        dsimp only
        rw [exec_modify_bind, exec_pure, Dict.getD, given, Option.getD_some]
        constructor
        · rintro ⟨⟩
          exact ⟨fun _ => ⟨value, rfl⟩, rfl, rfl⟩
        · rintro ⟨-, rfl, rfl⟩
          rfl
  · rw [if_neg implied, exec_bind, exec_pure]
    dsimp only
    rw [exec_modify_bind, exec_pure,
      hostWithPort_congr implied [] (environ.getD "wsgi.url_scheme".toList [])]
    constructor
    · rintro ⟨⟩
      exact ⟨fun needs => absurd needs.2.2 implied, rfl, rfl⟩
    · rintro ⟨-, rfl, rfl⟩
      rfl

end Host

/-! ### The client -/

section Client

variable {environ after : Environ} {client : Option Str}

/-- Only white space stands where the address of the client should be. -/
def NoAddress (client : Str) : Prop :=
  client ≠ [] ∧ ∃ blank rest, client = blank ++ rest ∧ (∀ c ∈ blank, Str.isSpace c = true) ∧
    (rest = [] ∨ ∃ port, rest = ':' :: port ∧ ':' ∉ port ∧ port.getLast? ≠ some ']')

theorem splitClient_eq_nil_iff {client : Str} (nonempty : client ≠ []) :
    (splitClient client).1 = [] ↔ NoAddress client := by
  have colon : Str.isSpace ':' = false := by decide
  rw [splitClient, NoAddress]
  by_cases withPort : hasPort client = true
  · rw [if_pos withPort]
    obtain ⟨isColon, notBracket⟩ := of_decide_eq_true withPort
    obtain ⟨front, back, rfl, absent⟩ := Str.exists_last_separator isColon
    rw [Str.rsplit_append absent, Str.strip_eq_nil_iff]
    constructor
    · intro blank
      refine ⟨nonempty, front, ':' :: back, rfl, blank, .inr ⟨back, rfl, absent, fun last => ?_⟩⟩
      rw [List.getLast?_append, List.getLast?_cons, last] at notBracket
      exact notBracket rfl
    · rintro ⟨-, blank, rest, split, allBlank, forms⟩
      rcases forms with rfl | ⟨port, rfl, noColon, -⟩
      · rw [List.append_nil] at split
        have blankColon := allBlank ':' (split ▸ isColon)
        rw [colon] at blankColon
        cases blankColon
      · have fronts := Str.rsplit_append noColon blank
        rw [← split, Str.rsplit_append absent] at fronts
        cases fronts
        exact allBlank
  · rw [if_neg withPort, Str.strip_eq_nil_iff]
    constructor
    · intro blank
      exact ⟨nonempty, client, [], (List.append_nil client).symm, blank, .inl rfl⟩
    · rintro ⟨-, blank, rest, rfl, allBlank, forms⟩
      rcases forms with rfl | ⟨port, rfl, -, notBracket⟩
      · rw [List.append_nil]
        exact allBlank
      · refine absurd (decide_eq_true ⟨?_, ?_⟩) withPort
        · exact List.mem_append_right _ List.mem_cons_self
        · rw [List.getLast?_append, List.getLast?_cons]
          cases last : port.getLast? with
          | none => exact fun same => by cases same
          | some c =>
              rw [last] at notBracket
              exact notBracket

def withoutBrackets (addr : Str) : Str :=
  if addr.head? = some '[' ∧ addr.getLast? = some ']' then addr.tail.dropLast else addr

def setClient (client : Str) (environ : Environ) : Environ :=
  let addr := withoutBrackets (splitClient client).1
  let environ := environ.set "REMOTE_ADDR".toList addr
  let environ := match (splitClient client).2 with
    | some port => environ.set "REMOTE_PORT".toList port
    | none => environ
  environ.set "REMOTE_HOST".toList addr

theorem get?_setClient_addr (client : Str) (environ : Environ) :
    (setClient client environ).get? "REMOTE_ADDR".toList =
        some (withoutBrackets (splitClient client).1) ∧
      (setClient client environ).get? "REMOTE_HOST".toList =
        some (withoutBrackets (splitClient client).1) := by
  rw [setClient]
  refine ⟨?_, by rw [Dict.get?_set, if_pos rfl]⟩
  rw [Dict.get?_set, if_neg (by decide)]
  cases (splitClient client).2 with
  | none => rw [Dict.get?_set, if_pos rfl]
  | some port =>
      dsimp only
      rw [Dict.get?_set, if_neg (by decide), Dict.get?_set, if_pos rfl]

theorem get?_setClient_port (client : Str) (environ : Environ) :
    (setClient client environ).get? "REMOTE_PORT".toList =
      (splitClient client).2.or (environ.get? "REMOTE_PORT".toList) := by
  rw [setClient, Dict.get?_set, if_neg (by decide)]
  cases (splitClient client).2 with
  | none =>
      dsimp only
      rw [Dict.get?_set, if_neg (by decide)]
      rfl
  | some port =>
      dsimp only
      rw [Dict.get?_set, if_pos rfl]
      rfl

theorem exec_applyClient_absent (absent : client.getD [] = []) :
    exec (applyClient client) environ = (.ok (), environ) := by
  rw [applyClient, if_pos absent, exec_pure]

theorem exec_applyClient_noAddress (noAddress : NoAddress (client.getD [])) :
    exec (applyClient client) environ =
      (.error (.indexError "string index out of range".toList), environ) := by
  have nonempty := noAddress.1
  have none := (splitClient_eq_nil_iff nonempty).mpr noAddress
  rw [applyClient, if_neg nonempty, exec_bind, exec_ofExcept, none, stripBrackets, if_pos rfl]

theorem exec_applyClient (nonempty : client.getD [] ≠ [])
    (hasAddress : ¬NoAddress (client.getD [])) :
    exec (applyClient client) environ = (.ok (), setClient (client.getD []) environ) := by
  have addr : (splitClient (client.getD [])).1 ≠ [] := fun none =>
    hasAddress ((splitClient_eq_nil_iff nonempty).mp none)
  have stripped : stripBrackets (splitClient (client.getD [])).1 =
      .ok (withoutBrackets (splitClient (client.getD [])).1) := by
    rw [stripBrackets, if_neg addr, withoutBrackets]
    split
    · rfl
    · rfl
  rw [applyClient, if_neg nonempty, exec_bind, exec_ofExcept, stripped, setClient]
  dsimp only
  rw [exec_modify_bind]
  cases (splitClient (client.getD [])).2 with
  | none => rfl
  | some port => rfl

end Client

/-! ### The whole call -/

section Call

variable {trusted : List Str} {count : Int} {environ after : Environ}

/-- The environment with the scheme, the host and the port that the headers give. -/
def numbered (trusted : List Str) (count : Int) (environ : Environ) : Environ :=
  let start := gathered trusted count environ
  let port := (withHostPort start).forwardedPort
  let named := setHost start (kept trusted count environ)
  if port = [] then named else named.set "SERVER_PORT".toList port

def rewritten (trusted : List Str) (count : Int) (environ : Environ) : Environ :=
  let client := (clientText trusted count environ).getD []
  if client = [] then numbered trusted count environ
  else setClient client (numbered trusted count environ)

theorem exec_applyPort (start : Collected) :
    exec (applyPort start) environ =
      (.ok (), if start.forwardedPort = [] then environ
        else environ.set "SERVER_PORT".toList start.forwardedPort) := by
  rw [applyPort]
  split
  · exact exec_pure _ _
  · exact exec_modify _ _

theorem clientAddr_withHostPort (start : Collected) :
    (withHostPort start).clientAddr = start.clientAddr := by
  rw [withHostPort]
  split
  · rfl
  · rfl

/-- The outcome once the headers have been read and the scheme is there. -/
theorem exec_parseProxyHeaders (positive : 1 ≤ count) (readable : Readable trusted count environ)
    (scheme : NeedsScheme (gathered trusted count environ) →
      ∃ scheme, (kept trusted count environ).get? "wsgi.url_scheme".toList = some scheme) :
    exec (parseProxyHeaders trusted count) environ =
      match exec (applyClient (clientText trusted count environ))
          (numbered trusted count environ) with
      | (.ok _, after) => (.ok (untrustedHeaders trusted environ), after)
      | (.error exc, after) => (.error exc, after) := by
  have gathers : exec (gather trusted count) environ = (.ok _, _) :=
    (exec_gather_ok_iff positive).mpr ⟨readable, rfl, rfl⟩
  have applies : exec (applyHost (gathered trusted count environ)) (kept trusted count environ) =
      (.ok _, _) := exec_applyHost_ok_iff.mpr ⟨scheme, rfl, rfl⟩
  rw [parseProxyHeaders, exec_get_bind, exec_bind, gathers]
  dsimp only
  rw [exec_bind, applies]
  dsimp only
  rw [exec_bind, exec_applyPort]
  dsimp only
  rw [exec_bind, clientAddr_withHostPort]
  have client : (gathered trusted count environ).clientAddr = clientText trusted count environ := rfl
  have ports : (if (withHostPort (gathered trusted count environ)).forwardedPort = [] then
      setHost (gathered trusted count environ) (kept trusted count environ)
      else (setHost (gathered trusted count environ) (kept trusted count environ)).set
        "SERVER_PORT".toList (withHostPort (gathered trusted count environ)).forwardedPort) =
      numbered trusted count environ := rfl
  rw [client, ports]
  rcases exec (applyClient (clientText trusted count environ)) (numbered trusted count environ) with
    ⟨_ | _, _⟩
  · rfl
  · rfl

theorem exec_parseProxyHeaders_ok_iff (positive : 1 ≤ count) {untrusted : List Str} :
    exec (parseProxyHeaders trusted count) environ = (.ok untrusted, after) ↔
      Readable trusted count environ ∧
      (NeedsScheme (gathered trusted count environ) →
        ∃ scheme, (kept trusted count environ).get? "wsgi.url_scheme".toList = some scheme) ∧
      ¬NoAddress ((clientText trusted count environ).getD []) ∧
      untrusted = untrustedHeaders trusted environ ∧ after = rewritten trusted count environ := by
  constructor
  · intro returned
    have result := returned
    rw [parseProxyHeaders, exec_get_bind] at result
    obtain ⟨start, middle, gathers, rest⟩ := exec_bind_ok result
    obtain ⟨readable, rfl, rfl⟩ := (exec_gather_ok_iff positive).mp gathers
    obtain ⟨_, _, applies, -⟩ := exec_bind_ok rest
    obtain ⟨scheme, -, -⟩ := exec_applyHost_ok_iff.mp applies
    rw [exec_parseProxyHeaders positive readable scheme] at returned
    refine ⟨readable, scheme, ?_⟩
    by_cases noAddress : NoAddress ((clientText trusted count environ).getD [])
    · rw [exec_applyClient_noAddress noAddress] at returned
      cases (Prod.mk.inj returned).1
    refine ⟨noAddress, ?_⟩
    by_cases absent : (clientText trusted count environ).getD [] = []
    · rw [exec_applyClient_absent absent] at returned
      cases returned
      exact ⟨rfl, (if_pos absent).symm⟩
    · rw [exec_applyClient absent noAddress] at returned
      cases returned
      exact ⟨rfl, (if_neg absent).symm⟩
  · rintro ⟨readable, scheme, hasAddress, rfl, rfl⟩
    rw [exec_parseProxyHeaders positive readable scheme]
    by_cases absent : (clientText trusted count environ).getD [] = []
    · rw [exec_applyClient_absent absent]
      exact congrArg (Prod.mk _) (if_pos absent).symm
    · rw [exec_applyClient absent hasAddress]
      exact congrArg (Prod.mk _) (if_neg absent).symm

theorem get?_kept_scheme {scheme : Str}
    (given : environ.get? "wsgi.url_scheme".toList = some scheme) :
    ∃ scheme, (kept trusted count environ).get? "wsgi.url_scheme".toList = some scheme := by
  have apart : (keepHost trusted count (keepFor trusted count environ)).get?
      "wsgi.url_scheme".toList = some scheme :=
    ((get?_keepHost (by decide)).trans (get?_keepFor (by decide))).trans given
  rw [kept]
  split
  · split
    · exact ⟨scheme, apart⟩
    · rw [Dict.get?_set, if_neg (by decide)]
      exact ⟨scheme, apart⟩
  · rw [Dict.get?_set, if_pos rfl]
    exact ⟨_, rfl⟩

def numberedKeys : List Str :=
  ["HTTP_X_FORWARDED_FOR".toList, "HTTP_X_FORWARDED_HOST".toList, "HTTP_FORWARDED".toList,
    "wsgi.url_scheme".toList, "SERVER_NAME".toList, "HTTP_HOST".toList, "SERVER_PORT".toList]

theorem get?_kept_other {key : Str} (other : key ∉ numberedKeys) :
    (kept trusted count environ).get? key = environ.get? key := by
  simp only [numberedKeys, List.mem_cons, List.not_mem_nil, or_false, not_or] at other
  obtain ⟨notFor, notHost, notForwarded, notScheme, -⟩ := other
  have apart : (keepHost trusted count (keepFor trusted count environ)).get? key =
      environ.get? key :=
    (get?_keepHost (Ne.symm notHost)).trans (get?_keepFor (Ne.symm notFor))
  rw [kept]
  split
  · split
    · exact apart
    · rw [Dict.get?_set, if_neg (Ne.symm notForwarded), apart]
  · rw [Dict.get?_set, if_neg (Ne.symm notScheme)]
    split
    · exact apart
    · rw [Dict.get?_set, if_neg (Ne.symm notForwarded), apart]

theorem get?_setHost_other {start : Collected} {key : Str} (other : key ∉ numberedKeys) :
    (setHost start environ).get? key = environ.get? key := by
  simp only [numberedKeys, List.mem_cons, List.not_mem_nil, or_false, not_or] at other
  obtain ⟨-, -, -, -, notName, notHost, -⟩ := other
  rw [setHost]
  split
  · rfl
  split
  · rw [Dict.get?_set, if_neg (Ne.symm notHost), Dict.get?_set, if_neg (Ne.symm notName)]
  · rw [Dict.get?_set, if_neg (Ne.symm notHost), Dict.get?_set, if_neg (Ne.symm notHost),
      Dict.get?_set, if_neg (Ne.symm notName)]

theorem get?_numbered_other {key : Str} (other : key ∉ numberedKeys) :
    (numbered trusted count environ).get? key = environ.get? key := by
  have notPort : "SERVER_PORT".toList ≠ key := by
    rintro rfl
    exact other (by decide)
  rw [numbered]
  split
  · rw [get?_setHost_other other, get?_kept_other other]
  · rw [Dict.get?_set, if_neg notPort, get?_setHost_other other, get?_kept_other other]

/-- Apart from malformed headers there is only one way to fail: a client without an address. -/
theorem exec_parseProxyHeaders_error (positive : 1 ≤ count) {scheme : Str}
    (given : environ.get? "wsgi.url_scheme".toList = some scheme) {exc : ProxyExc}
    (raised : exec (parseProxyHeaders trusted count) environ = (.error exc, after)) :
    IsMalformed exc ∨
      Readable trusted count environ ∧ NoAddress ((clientText trusted count environ).getD []) := by
  have present := @get?_kept_scheme trusted count environ scheme given
  rcases outcome : exec (gather trusted count) environ with ⟨failed | start, middle⟩
  · rw [parseProxyHeaders, exec_get_bind, exec_bind, outcome] at raised
    obtain ⟨same, rfl⟩ := Prod.mk.inj raised
    cases same
    exact .inl (raisesOnly_gather environ _ _ outcome)
  · obtain ⟨readable, -, -⟩ := (exec_gather_ok_iff positive).mp outcome
    rw [exec_parseProxyHeaders positive readable fun _ => present] at raised
    refine .inr ⟨readable, ?_⟩
    by_contra hasAddress
    by_cases absent : (clientText trusted count environ).getD [] = []
    · rw [exec_applyClient_absent absent] at raised
      cases (Prod.mk.inj raised).1
    · rw [exec_applyClient absent hasAddress] at raised
      cases (Prod.mk.inj raised).1

end Call

end Waitress.ProxyHeaders
