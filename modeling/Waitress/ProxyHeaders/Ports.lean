import Waitress.ProxyHeaders.Rewriting

/-!
# Scheme, host and port

The port of the server and the port that the host denotes are the same, wherever
the port comes from.
-/

namespace Waitress.ProxyHeaders

open Raising

/-- The port that a host denotes: its explicit port, or else that of the scheme. -/
def denotedPort (host scheme : Str) : Option Str :=
  if hasPort host = true then some (Str.rsplit ':' host).2
  else if scheme = "http".toList then some "80".toList
  else if scheme = "https".toList then some "443".toList
  else none

structure IsPort (port : Str) : Prop where
  nonempty : port ≠ []
  noColon : ':' ∉ port
  noBracket : port.getLast? ≠ some ']'

section Ports

variable {trusted : List Str} {count : Int} {environ after : Environ} {host port scheme : Str}

/-- The port of the host, else of `X-Forwarded-Port`, else the one that the scheme implies. -/
def selectedPort (trusted : List Str) (count : Int) (environ : Environ) : Str :=
  if hasPort (hostText trusted count environ) = true then
    (Str.rsplit ':' (hostText trusted count environ)).2
  else if portText trusted environ ≠ [] then portText trusted environ
  else if protoText trusted count environ = "http".toList then "80".toList
  else if protoText trusted count environ = "https".toList then "443".toList
  else []

theorem selectedPort_eq : (withHostPort (gathered trusted count environ)).forwardedPort =
    selectedPort trusted count environ := by
  rw [withHostPort, selectedPort]
  by_cases withPort : hasPort (gathered trusted count environ).forwardedHost = true
  · rw [if_pos withPort]
    exact (if_pos withPort).symm
  · rw [if_neg withPort]
    refine Eq.trans ?_ (if_neg withPort).symm
    rw [ite_not]
    rfl

theorem hasPort_append (isPort : IsPort port) (host : Str) :
    hasPort (host ++ [':'] ++ port) = true := by
  refine decide_eq_true ⟨by simp, ?_⟩
  rw [List.getLast?_append_of_ne_nil _ isPort.nonempty]
  exact isPort.noBracket

/-- A host without a port of its own denotes the port that it is completed with. -/
theorem denotedPort_hostWithPort (isPort : IsPort port) (plain : hasPort host = false)
    (scheme : Str) : denotedPort (hostWithPort host port scheme) scheme = some port := by
  have explicit : denotedPort (host ++ [':'] ++ port) scheme = some port := by
    rw [denotedPort, if_pos (hasPort_append isPort host), List.append_assoc,
      List.singleton_append, Str.rsplit_append isPort.noColon]
  rw [hostWithPort, if_neg isPort.nonempty]
  split
  · exact explicit
  · next implied =>
      rw [not_or, not_or, not_not] at implied
      obtain ⟨known, notHttp, notHttps⟩ := implied
      rw [denotedPort, plain, if_neg Bool.false_ne_true]
      rcases List.mem_pair.mp known with rfl | rfl
      · have isHttps : scheme = "https".toList := by
          by_contra other
          exact notHttps ⟨rfl, other⟩
        rw [isHttps, if_neg (by decide), if_pos rfl]
      · have isHttp : scheme = "http".toList := by
          by_contra other
          exact notHttp ⟨rfl, other⟩
        rw [isHttp, if_pos rfl]

theorem get?_setClient {client key : Str} (notAddr : "REMOTE_ADDR".toList ≠ key)
    (notPort : "REMOTE_PORT".toList ≠ key) (notHost : "REMOTE_HOST".toList ≠ key) :
    (setClient client environ).get? key = environ.get? key := by
  rw [setClient]
  cases (splitClient client).2 with
  | none => rw [Dict.get?_set, if_neg notHost, Dict.get?_set, if_neg notAddr]
  | some port =>
      dsimp only
      rw [Dict.get?_set, if_neg notHost, Dict.get?_set, if_neg notPort, Dict.get?_set,
        if_neg notAddr]

theorem get?_rewritten {key : Str} (notAddr : "REMOTE_ADDR".toList ≠ key)
    (notPort : "REMOTE_PORT".toList ≠ key) (notHost : "REMOTE_HOST".toList ≠ key) :
    (rewritten trusted count environ).get? key = (numbered trusted count environ).get? key := by
  rw [rewritten]
  split
  · rfl
  · exact get?_setClient notAddr notPort notHost

theorem get?_numbered {key : Str} (notPort : "SERVER_PORT".toList ≠ key) :
    (numbered trusted count environ).get? key =
      (setHost (gathered trusted count environ) (kept trusted count environ)).get? key := by
  rw [numbered]
  split
  · rfl
  · rw [Dict.get?_set, if_neg notPort]

theorem get?_setHost_scheme {start : Collected} :
    (setHost start environ).get? "wsgi.url_scheme".toList =
      environ.get? "wsgi.url_scheme".toList := by
  rw [setHost]
  split
  · rfl
  split
  · rw [Dict.get?_set, if_neg (by decide), Dict.get?_set, if_neg (by decide)]
  · rw [Dict.get?_set, if_neg (by decide), Dict.get?_set, if_neg (by decide), Dict.get?_set,
      if_neg (by decide)]

/-- The port of the server is the selected one, and so is the port that the host denotes. -/
theorem serverPort_eq_denotedPort (positive : 1 ≤ count) {untrusted : List Str}
    (returned : exec (parseProxyHeaders trusted count) environ = (.ok untrusted, after))
    (hostGiven : hostText trusted count environ ≠ [])
    (portGiven : IsPort (selectedPort trusted count environ)) :
    after.get? "SERVER_PORT".toList = some (selectedPort trusted count environ) ∧
    ∃ host, after.get? "HTTP_HOST".toList = some host ∧
      denotedPort host (after.getD "wsgi.url_scheme".toList []) =
        some (selectedPort trusted count environ) := by
  obtain ⟨-, -, -, -, rfl⟩ := (exec_parseProxyHeaders_ok_iff positive).mp returned
  have scheme : (rewritten trusted count environ).getD "wsgi.url_scheme".toList [] =
      (kept trusted count environ).getD "wsgi.url_scheme".toList [] := by
    rw [Dict.getD, Dict.getD, get?_rewritten (by decide) (by decide) (by decide),
      get?_numbered (by decide), get?_setHost_scheme]
  constructor
  · rw [get?_rewritten (by decide) (by decide) (by decide), numbered, selectedPort_eq,
      if_neg portGiven.nonempty, Dict.get?_set, if_pos rfl]
  · have hostIs : (gathered trusted count environ).forwardedHost =
        hostText trusted count environ := rfl
    rw [get?_rewritten (by decide) (by decide) (by decide), get?_numbered (by decide), scheme,
      setHost, hostIs]
    by_cases withPort : hasPort (hostText trusted count environ) = true
    · refine ⟨hostText trusted count environ, ?_, ?_⟩
      · rw [if_neg hostGiven, if_pos withPort, Dict.get?_set, if_pos rfl]
      · rw [denotedPort, selectedPort, if_pos withPort, if_pos withPort]
    · have plain : hasPort (hostText trusted count environ) = false := Bool.not_eq_true _ ▸ withPort
      have port : (gathered trusted count environ).forwardedPort =
          selectedPort trusted count environ := by
        rw [← selectedPort_eq, withHostPort]
        exact congrArg Collected.forwardedPort (if_neg withPort).symm
      refine ⟨hostWithPort (hostText trusted count environ) (selectedPort trusted count environ)
        ((kept trusted count environ).getD "wsgi.url_scheme".toList []), ?_,
        denotedPort_hostWithPort portGiven plain _⟩
      rw [if_neg hostGiven, if_neg withPort, Dict.get?_set, if_pos rfl, port]

end Ports

/-- A host and a port that a proxy has forwarded. -/
def forwardedHostEnviron : Environ :=
  ⟨[("wsgi.url_scheme".toList, "http".toList),
    ("HTTP_X_FORWARDED_HOST".toList, "example.com".toList),
    ("HTTP_X_FORWARDED_PORT".toList, "8443".toList)]⟩

theorem serverPort_eq_denotedPort_example :
    ∃ untrusted after, exec (parseProxyHeaders ["x-forwarded-host".toList, "x-forwarded-port".toList]
      1) forwardedHostEnviron = (.ok untrusted, after) ∧
    after.get? "SERVER_PORT".toList = some (selectedPort
      ["x-forwarded-host".toList, "x-forwarded-port".toList] 1 forwardedHostEnviron) ∧
    ∃ host, after.get? "HTTP_HOST".toList = some host ∧
      denotedPort host (after.getD "wsgi.url_scheme".toList []) = some (selectedPort
        ["x-forwarded-host".toList, "x-forwarded-port".toList] 1 forwardedHostEnviron) := by
  have returns : (exec (parseProxyHeaders ["x-forwarded-host".toList, "x-forwarded-port".toList] 1)
      forwardedHostEnviron).1 = .ok ["X_FORWARDED_FOR".toList, "X_FORWARDED_PROTO".toList,
        "X_FORWARDED_BY".toList, "FORWARDED".toList] := by decide +kernel
  have port : selectedPort ["x-forwarded-host".toList, "x-forwarded-port".toList] 1
      forwardedHostEnviron = "8443".toList := by decide +kernel
  have isPort : IsPort "8443".toList := ⟨by decide, by decide, by decide⟩
  rcases run : exec (parseProxyHeaders ["x-forwarded-host".toList, "x-forwarded-port".toList] 1)
    forwardedHostEnviron with ⟨result, after⟩
  rw [run] at returns
  obtain rfl := returns
  exact ⟨_, after, rfl, serverPort_eq_denotedPort (by decide) run (by decide +kernel)
    (port ▸ isPort)⟩

/-- A host and a scheme in one header and a port in another. -/
def mixedEnviron : Environ :=
  ⟨[("wsgi.url_scheme".toList, "http".toList),
    ("HTTP_FORWARDED".toList, "host=example.com;proto=https".toList),
    ("HTTP_X_FORWARDED_PORT".toList, "8443".toList)]⟩

/-- Beside a `Forwarded` header the port of `X-Forwarded-Port` is dropped, even if both headers
are trusted. -/
theorem serverPort_beside_forwarded :
    ¬∀ (trusted : List Str) (count : Int) (environ after : Environ) (untrusted : List Str),
      1 ≤ count → exec (parseProxyHeaders trusted count) environ = (.ok untrusted, after) →
      hostText trusted count environ ≠ [] → hasPort (hostText trusted count environ) = false →
      IsPort (singleText trusted environ "x-forwarded-port" "HTTP_X_FORWARDED_PORT") →
      after.get? "SERVER_PORT".toList =
        some (singleText trusted environ "x-forwarded-port" "HTTP_X_FORWARDED_PORT") := by
  intro always
  have returns : (exec (parseProxyHeaders ["forwarded".toList, "x-forwarded-port".toList] 1)
      mixedEnviron).1 = .ok (proxyHeaders.erase "FORWARDED".toList) := by decide +kernel
  have actual : (exec (parseProxyHeaders ["forwarded".toList, "x-forwarded-port".toList] 1)
      mixedEnviron).2.get? "SERVER_PORT".toList = some "443".toList := by decide +kernel
  have port : singleText ["forwarded".toList, "x-forwarded-port".toList] mixedEnviron
      "x-forwarded-port" "HTTP_X_FORWARDED_PORT" = "8443".toList := by decide +kernel
  have isPort : IsPort "8443".toList := ⟨by decide, by decide, by decide⟩
  rcases run : exec (parseProxyHeaders ["forwarded".toList, "x-forwarded-port".toList] 1)
    mixedEnviron with ⟨result, after⟩
  rw [run] at returns actual
  obtain rfl := returns
  have claimed := always _ 1 mixedEnviron after _ (by decide) run (by decide +kernel)
    (by decide +kernel) (port ▸ isPort)
  rw [port] at claimed
  exact absurd (claimed.symm.trans actual) (by decide)

end Waitress.ProxyHeaders
