import Waitress.ProxyHeaders.Rewriting

/-!
# The middleware

What an application receives, for two environments that only differ in what no
trusted proxy has set.
-/

namespace Waitress.ProxyHeaders

open Raising

/-! ### The program -/

def knownProxyHeaders : List Str :=
  proxyHeaders.map fun header => (Str.lower header).map fun c => if c = '_' then '-' else c

/-- What `Adjustments` makes of `trusted_proxy_headers`, or the message of its `ValueError`. -/
def adjustTrusted (trustedProxy : Option Str) (trustedProxyHeaders : List Str) :
    Except Str (List Str) :=
  if trustedProxyHeaders ≠ [] ∧ trustedProxy = none then
    .error "trusted_proxy_headers has no meaning without setting trusted_proxy".toList
  else if trustedProxyHeaders ≠ [] then
    let headers := trustedProxyHeaders.map Str.lower
    let unknown := headers.filter fun header => header ∉ knownProxyHeaders
    if unknown ≠ [] then
      .error ("Received unknown trusted_proxy_headers value (".toList ++
        Str.join ", ".toList unknown ++ ") expected one of ".toList ++
        Str.join ", ".toList knownProxyHeaders)
    else if "forwarded".toList ∈ headers ∧ ∃ header ∈ headers, header ≠ "forwarded".toList then
      .error ("The Forwarded proxy header and the ".toList ++
        "X-Forwarded-\x7bBy,Host,Proto,Port,For\x7d headers are mutually ".toList ++
        "exclusive. Can't trust both!".toList)
    else .ok headers
  else if trustedProxy ≠ none then .ok ["x-forwarded-proto".toList]
  else .ok []

structure Middleware where
  trustedProxy : Option Str := none
  trustedProxyCount : Int := 1
  trustedProxyHeaders : List Str := []
  clearUntrusted : Bool := true

def clearUntrustedHeaders (untrusted : List Str) (environ : Environ) : Environ :=
  untrusted.foldl (fun environ header => environ.erase ("HTTP_".toList ++ header)) environ

def remotePeer : ProxyM Str := do
  match (← get).get? "REMOTE_ADDR".toList with
  | some peer => return peer
  | none => throw (.keyError "REMOTE_ADDR".toList)

namespace Middleware

variable (middleware : Middleware)

/-- The part of `translate_proxy_headers` before the application is called. -/
def prepare : ProxyM Unit := do
  let peer ← remotePeer
  let untrusted ←
    if middleware.trustedProxy = some "*".toList ∨ middleware.trustedProxy = some peer then
      parseProxyHeaders middleware.trustedProxyHeaders middleware.trustedProxyCount
    else pure proxyHeaders
  if middleware.clearUntrusted = true then modify (clearUntrustedHeaders untrusted)

inductive Translated where
  | app (environ : Environ)
  | badRequest (error : Error)
  | raises (exc : ProxyExc)

def translate (environ : Environ) : Translated :=
  match exec middleware.prepare environ with
  | (.ok _, after) => .app after
  | (.error (.malformedProxyHeader header _ _), _) =>
      .badRequest (.badRequest ("Header \"".toList ++ header ++ "\" malformed.".toList))
  | (.error exc, _) => .raises exc

def Translated.received : Translated → Option Environ
  | .app environ => some environ
  | _ => none

end Middleware

/-! ### Agreement -/

/-- Two environments agree but for these entries. -/
def AgreeOff (keys : List Str) (first second : Environ) : Prop :=
  ∀ key, key ∉ keys → first.get? key = second.get? key

namespace AgreeOff

variable {keys : List Str} {first second : Environ}

theorem set (agree : AgreeOff keys first second) (key value : Str) :
    AgreeOff keys (first.set key value) (second.set key value) := by
  intro other outside
  rw [Dict.get?_set, Dict.get?_set]
  split
  · rfl
  · exact agree other outside

theorem setHost {start : Collected} (agree : AgreeOff keys first second)
    (scheme : "wsgi.url_scheme".toList ∉ keys) :
    AgreeOff keys (setHost start first) (ProxyHeaders.setHost start second) := by
  rw [ProxyHeaders.setHost, ProxyHeaders.setHost]
  split
  · exact agree
  split
  · exact (agree.set _ _).set _ _
  · rw [Dict.getD, Dict.getD, agree _ scheme]
    exact ((agree.set _ _).set _ _).set _ _

theorem setClient (agree : AgreeOff keys first second) (client : Str) :
    AgreeOff keys (setClient client first) (ProxyHeaders.setClient client second) := by
  rw [ProxyHeaders.setClient, ProxyHeaders.setClient]
  cases (splitClient client).2 with
  | none => exact (agree.set _ _).set _ _
  | some port => exact ((agree.set _ _).set _ _).set _ _

end AgreeOff

theorem get?_clearUntrustedHeaders (untrusted : List Str) (environ : Environ) (key : Str) :
    (clearUntrustedHeaders untrusted environ).get? key =
      if key ∈ untrusted.map ("HTTP_".toList ++ ·) then none else environ.get? key := by
  induction untrusted generalizing environ with
  | nil => rfl
  | cons header untrusted inductionHypothesis =>
      rw [clearUntrustedHeaders, List.foldl_cons, ← clearUntrustedHeaders, inductionHypothesis,
        Dict.get?_erase, List.map_cons]
      by_cases first : "HTTP_".toList ++ header = key
      · rw [if_pos first, ite_self, if_pos (List.mem_cons.mpr (.inl first.symm))]
      · have rest : key ∈ ("HTTP_".toList ++ header) :: untrusted.map ("HTTP_".toList ++ ·) ↔
            key ∈ untrusted.map ("HTTP_".toList ++ ·) := by
          rw [List.mem_cons, or_iff_right (Ne.symm first)]
        rw [if_neg first, if_congr rest rfl rfl]

theorem AgreeOff.clear {untrusted : List Str} {first second : Environ}
    (agree : AgreeOff (untrusted.map ("HTTP_".toList ++ ·)) first second) :
    (clearUntrustedHeaders untrusted first).get? = (clearUntrustedHeaders untrusted second).get? := by
  funext key
  rw [get?_clearUntrustedHeaders, get?_clearUntrustedHeaders]
  split
  · rfl
  · next outside => exact agree key outside

/-! ### Trusted values -/

/-- What `Adjustments` accepts: `Forwarded` is trusted alone or not at all. -/
def Exclusive (trusted : List Str) : Prop :=
  "forwarded".toList ∈ trusted → ∀ header ∈ trusted, header = "forwarded".toList

theorem adjustTrusted_exclusive {trustedProxy : Option Str} {given trusted : List Str}
    (adjusted : adjustTrusted trustedProxy given = .ok trusted) : Exclusive trusted := by
  rw [adjustTrusted] at adjusted
  split at adjusted
  · cases adjusted
  split at adjusted
  · dsimp only at adjusted
    split at adjusted
    · cases adjusted
    split at adjusted
    · cases adjusted
    · next separate =>
        cases adjusted
        intro listed header mem
        by_contra other
        exact separate ⟨listed, header, mem, other⟩
  split at adjusted
  · cases adjusted
    exact fun listed => absurd listed (by decide)
  · cases adjusted
    exact fun listed => absurd listed List.not_mem_nil

/-- The entries of the headers, with the names under which they are trusted. -/
def singleHeaders : List (String × String) :=
  [("x-forwarded-proto", "HTTP_X_FORWARDED_PROTO"), ("x-forwarded-port", "HTTP_X_FORWARDED_PORT"),
    ("x-forwarded-by", "HTTP_X_FORWARDED_BY")]

def listHeaders : List (String × String) :=
  [("x-forwarded-for", "HTTP_X_FORWARDED_FOR"), ("x-forwarded-host", "HTTP_X_FORWARDED_HOST"),
    ("forwarded", "HTTP_FORWARDED")]

def SameSingles (trusted : List Str) (first second : Environ) : Prop :=
  ∀ header ∈ singleHeaders, header.1.toList ∈ trusted →
    first.get? header.2.toList = second.get? header.2.toList

/-- The trusted lists are both there, with the same elements of trusted proxies, or both missing. -/
def SameLists (trusted : List Str) (count : Int) (first second : Environ) : Prop :=
  ∀ header ∈ listHeaders, header.1.toList ∈ trusted →
    (first.get? header.2.toList).map (trustedElements count) =
      (second.get? header.2.toList).map (trustedElements count)

instance (trusted : List Str) (first second : Environ) :
    Decidable (SameSingles trusted first second) :=
  inferInstanceAs (Decidable (∀ header ∈ singleHeaders, _ → _))

instance (trusted : List Str) (count : Int) (first second : Environ) :
    Decidable (SameLists trusted count first second) :=
  inferInstanceAs (Decidable (∀ header ∈ listHeaders, _ → _))

def SameElsewhere : Environ → Environ → Prop := AgreeOff (proxyHeaders.map ("HTTP_".toList ++ ·))

/-- The environments agree in what trusted proxies have set. -/
structure Agree (trusted : List Str) (count : Int) (first second : Environ) : Prop where
  elsewhere : SameElsewhere first second
  singles : SameSingles trusted first second
  lists : SameLists trusted count first second

section Trusted

variable {trusted : List Str} {count : Int} {environ first second : Environ}

theorem trustedValue_untrusted {name key : String} (untrusted : name.toList ∉ trusted) :
    trustedValue trusted name key environ = none := if_neg untrusted

theorem Agree.single (agree : Agree trusted count first second) {name key : String}
    (mem : (name, key) ∈ singleHeaders) :
    trustedValue trusted name key first = trustedValue trusted name key second := by
  by_cases isTrusted : name.toList ∈ trusted
  · rw [trustedValue, trustedValue, if_pos isTrusted, if_pos isTrusted]
    exact agree.singles _ mem isTrusted
  · rw [trustedValue_untrusted isTrusted, trustedValue_untrusted isTrusted]

theorem Agree.list (agree : Agree trusted count first second) {name key : String}
    (mem : (name, key) ∈ listHeaders) :
    (trustedValue trusted name key first).map (trustedElements count) =
      (trustedValue trusted name key second).map (trustedElements count) := by
  by_cases isTrusted : name.toList ∈ trusted
  · rw [trustedValue, trustedValue, if_pos isTrusted, if_pos isTrusted]
    exact agree.lists _ mem isTrusted
  · rw [trustedValue_untrusted isTrusted, trustedValue_untrusted isTrusted]

/-! ### What the headers come to -/

theorem Agree.oldestText (agree : Agree trusted count first second) {name key : String}
    (mem : (name, key) ∈ listHeaders) (read : Str → Except ProxyExc Str) :
    oldestText trusted count first name key read =
      ProxyHeaders.oldestText trusted count second name key read := by
  have elements : ∀ environ, ProxyHeaders.oldestText trusted count environ name key read =
      ((trustedValue trusted name key environ).map (trustedElements count)).bind fun elements =>
        elements.head?.bind fun element => (read element).toOption := by
    intro environ
    rw [Option.bind_map]
    rfl
  rw [elements, elements, agree.list mem]

theorem Agree.singleText (agree : Agree trusted count first second) {name key : String}
    (mem : (name, key) ∈ singleHeaders) :
    singleText trusted first name key = ProxyHeaders.singleText trusted second name key := by
  rw [ProxyHeaders.singleText, ProxyHeaders.singleText, agree.single mem]

theorem readForwarded_eq : readForwarded trusted environ =
    (trustedValue trusted "forwarded" "HTTP_FORWARDED" environ).getD [] := by
  rw [readForwarded, trustedValue]
  split
  · rfl
  · rfl

theorem Agree.forwardedText (agree : Agree trusted count first second) (field : Forwarded → Str) :
    forwardedText trusted count first field =
      ProxyHeaders.forwardedText trusted count second field := by
  have elements : trustedElements count (readForwarded trusted first) =
      trustedElements count (readForwarded trusted second) := by
    have same := agree.list (show ("forwarded", "HTTP_FORWARDED") ∈ listHeaders by decide)
    rw [readForwarded_eq, readForwarded_eq]
    generalize trustedValue trusted "forwarded" "HTTP_FORWARDED" first = value at same
    generalize trustedValue trusted "forwarded" "HTTP_FORWARDED" second = other at same
    cases value with
    | none =>
        cases other with
        | none => rfl
        | some other => cases same
    | some value =>
        cases other with
        | none => cases same
        | some other => exact Option.some.inj same
  rw [ProxyHeaders.forwardedText, ProxyHeaders.forwardedText, elements]

/-- Beside `Forwarded` nothing is trusted. -/
theorem Exclusive.untrusted (exclusive : Exclusive trusted)
    (present : readForwarded trusted environ ≠ []) {name : String} (other : name ≠ "forwarded") :
    name.toList ∉ trusted := by
  intro isTrusted
  have listed : "forwarded".toList ∈ trusted := by
    by_contra unlisted
    exact present (if_neg unlisted)
  exact other (String.toList_inj.mp (exclusive listed _ isTrusted))

theorem hostText_eq (exclusive : Exclusive trusted) : hostText trusted count environ =
    ((forwardedText trusted count environ Forwarded.host).or
      (oldestText trusted count environ "x-forwarded-host" "HTTP_X_FORWARDED_HOST"
        forwardHost)).getD [] := by
  rw [hostText]
  by_cases absent : readForwarded trusted environ = []
  · rw [if_pos absent, forwardedText_absent absent rfl, Option.none_or]
  · have none : oldestText trusted count environ "x-forwarded-host" "HTTP_X_FORWARDED_HOST"
        forwardHost = none := by
      rw [oldestText, trustedValue_untrusted (exclusive.untrusted absent (by decide)),
        Option.bind_none]
    rw [if_neg absent, none, Option.or_none]

theorem protoText_eq (exclusive : Exclusive trusted) : protoText trusted count environ =
    Str.lower ((forwardedText trusted count environ Forwarded.proto).getD
      (singleText trusted environ "x-forwarded-proto" "HTTP_X_FORWARDED_PROTO")) := by
  rw [protoText]
  by_cases absent : readForwarded trusted environ = []
  · rw [if_pos absent, forwardedText_absent absent rfl, Option.getD_none]
  · have none : singleText trusted environ "x-forwarded-proto" "HTTP_X_FORWARDED_PROTO" = [] := by
      rw [singleText, trustedValue_untrusted (exclusive.untrusted absent (by decide))]
      rfl
    rw [if_neg absent, none]

theorem portText_eq (exclusive : Exclusive trusted) : portText trusted environ =
    singleText trusted environ "x-forwarded-port" "HTTP_X_FORWARDED_PORT" := by
  rw [portText]
  by_cases absent : readForwarded trusted environ = []
  · rw [if_pos absent]
  · rw [if_neg absent, singleText,
      trustedValue_untrusted (exclusive.untrusted absent (by decide))]
    rfl

theorem Agree.gathered (agree : Agree trusted count first second) (exclusive : Exclusive trusted) :
    gathered trusted count first =
      { ProxyHeaders.gathered trusted count second with
        forwarded := readForwarded trusted first } := by
  have host : hostText trusted count first = hostText trusted count second := by
    rw [hostText_eq exclusive, hostText_eq exclusive, agree.forwardedText,
      agree.oldestText (by decide)]
  have proto : protoText trusted count first = protoText trusted count second := by
    rw [protoText_eq exclusive, protoText_eq exclusive, agree.forwardedText,
      agree.singleText (by decide)]
  have port : portText trusted first = portText trusted second := by
    rw [portText_eq exclusive, portText_eq exclusive, agree.singleText (by decide)]
  have client : clientText trusted count first = clientText trusted count second := by
    rw [clientText, clientText, agree.forwardedText, agree.oldestText (by decide)]
  rw [ProxyHeaders.gathered, ProxyHeaders.gathered, host, proto, port, client]

/-! ### What is left of the headers -/

theorem Agree.untrustedHeaders (agree : Agree trusted count first second) :
    untrustedHeaders trusted first = ProxyHeaders.untrustedHeaders trusted second := by
  have present : ∀ {name key : String}, (name, key) ∈ listHeaders → name.toList ∈ trusted →
      first.contains key.toList = second.contains key.toList := by
    intro name key mem isTrusted
    have same := congrArg Option.isSome (agree.lists _ mem isTrusted)
    rwa [Option.isSome_map, Option.isSome_map] at same
  rw [ProxyHeaders.untrustedHeaders, ProxyHeaders.untrustedHeaders]
  split
  · rfl
  · refine List.filter_congr fun header _ => ?_
    have hops : "x-forwarded-for".toList ∈ trusted →
        first.contains "HTTP_X_FORWARDED_FOR".toList =
          second.contains "HTTP_X_FORWARDED_FOR".toList := present (by decide)
    have hosts : "x-forwarded-host".toList ∈ trusted →
        first.contains "HTTP_X_FORWARDED_HOST".toList =
          second.contains "HTTP_X_FORWARDED_HOST".toList := present (by decide)
    by_cases hop : "x-forwarded-for".toList ∈ trusted
    · by_cases host : "x-forwarded-host".toList ∈ trusted
      · rw [hops hop, hosts host]
      · rw [hops hop]
        simp only [host, false_and, and_false, false_or]
    · by_cases host : "x-forwarded-host".toList ∈ trusted
      · rw [hosts host]
        simp only [hop, false_and, and_false, false_or]
      · simp only [hop, host, false_and, and_false, false_or]

/-- An entry that is not cleared belongs to a trusted header. -/
theorem trusted_of_not_cleared {name key : String} (mem : (name, key) ∈ singleHeaders ++ listHeaders)
    (outside : key.toList ∉
      (ProxyHeaders.untrustedHeaders trusted environ).map ("HTTP_".toList ++ ·)) :
    name.toList ∈ trusted := by
  by_contra unlisted
  have cleared : ∀ header : Str, header ∈ ProxyHeaders.untrustedHeaders trusted environ →
      "HTTP_".toList ++ header ≠ key.toList := fun header inside same =>
    outside (same ▸ List.mem_map_of_mem inside)
  simp only [singleHeaders, listHeaders, List.cons_append, List.nil_append, List.mem_cons,
    Prod.mk.injEq, List.not_mem_nil, or_false] at mem
  rw [ProxyHeaders.untrustedHeaders] at cleared
  split at cleared
  · next alone =>
      rcases mem with ⟨rfl, rfl⟩ | ⟨rfl, rfl⟩ | ⟨rfl, rfl⟩ | ⟨rfl, rfl⟩ | ⟨rfl, rfl⟩ | ⟨rfl, rfl⟩
      · exact cleared "X_FORWARDED_PROTO".toList (by decide) (by decide)
      · exact cleared "X_FORWARDED_PORT".toList (by decide) (by decide)
      · exact cleared "X_FORWARDED_BY".toList (by decide) (by decide)
      · exact cleared "X_FORWARDED_FOR".toList (by decide) (by decide)
      · exact cleared "X_FORWARDED_HOST".toList (by decide) (by decide)
      · exact unlisted alone
  · rcases mem with ⟨rfl, rfl⟩ | ⟨rfl, rfl⟩ | ⟨rfl, rfl⟩ | ⟨rfl, rfl⟩ | ⟨rfl, rfl⟩ | ⟨rfl, rfl⟩
    · refine cleared "X_FORWARDED_PROTO".toList (List.mem_filter.mpr ⟨by decide, ?_⟩) (by decide)
      simp only [unlisted, and_false]
      simp
    · refine cleared "X_FORWARDED_PORT".toList (List.mem_filter.mpr ⟨by decide, ?_⟩) (by decide)
      simp only [unlisted, and_false]
      simp
    · refine cleared "X_FORWARDED_BY".toList (List.mem_filter.mpr ⟨by decide, ?_⟩) (by decide)
      simp only [unlisted, and_false]
      simp
    · refine cleared "X_FORWARDED_FOR".toList (List.mem_filter.mpr ⟨by decide, ?_⟩) (by decide)
      simp only [unlisted, false_and, and_false]
      simp
    · refine cleared "X_FORWARDED_HOST".toList (List.mem_filter.mpr ⟨by decide, ?_⟩) (by decide)
      simp only [unlisted, false_and, and_false]
      simp
    · refine cleared "FORWARDED".toList (List.mem_filter.mpr ⟨by decide, ?_⟩) (by decide)
      simp

theorem get?_keepElements_own {name key : String} (isTrusted : name.toList ∈ trusted)
    (environ : Environ) : (keepElements trusted count name key environ).get? key.toList =
      (environ.get? key.toList).map (lastElements count) := by
  rw [keepElements, trustedValue, if_pos isTrusted]
  cases value : environ.get? key.toList with
  | none => exact value
  | some value =>
      dsimp only
      rw [Dict.get?_set, if_pos rfl]
      rfl

theorem Agree.lasts (agree : Agree trusted count first second) {name key : String}
    (mem : (name, key) ∈ listHeaders) (isTrusted : name.toList ∈ trusted) :
    (first.get? key.toList).map (lastElements count) =
      (second.get? key.toList).map (lastElements count) := by
  have joined : ∀ value : Option Str, value.map (lastElements count) =
      (value.map (trustedElements count)).map fun elements => Str.strip (Str.join [','] elements) := by
    intro value
    rw [Option.map_map]
    rfl
  rw [joined, joined, agree.lists _ mem isTrusted]

/-- What the reading leaves of an entry, apart from the two lists that are shortened first. -/
theorem get?_kept (trusted : List Str) (count : Int) (environ : Environ) (key : Str) :
    (kept trusted count environ).get? key =
      if protoText trusted count environ ≠ [] ∧ "wsgi.url_scheme".toList = key then
        some (protoText trusted count environ)
      else if readForwarded trusted environ ≠ [] ∧ "HTTP_FORWARDED".toList = key then
        some (lastElements count (readForwarded trusted environ))
      else (keepHost trusted count (keepFor trusted count environ)).get? key := by
  have after : (if readForwarded trusted environ = [] then
        keepHost trusted count (keepFor trusted count environ)
      else (keepHost trusted count (keepFor trusted count environ)).set "HTTP_FORWARDED".toList
        (lastElements count (readForwarded trusted environ))).get? key =
      if readForwarded trusted environ ≠ [] ∧ "HTTP_FORWARDED".toList = key then
        some (lastElements count (readForwarded trusted environ))
      else (keepHost trusted count (keepFor trusted count environ)).get? key := by
    by_cases absent : readForwarded trusted environ = []
    · rw [if_pos absent, if_neg fun both => both.1 absent]
    · rw [if_neg absent, Dict.get?_set, if_congr (and_iff_right absent) rfl rfl]
  rw [← after, kept]
  by_cases absent : protoText trusted count environ = []
  · rw [if_pos absent]
    exact (if_neg fun both => both.1 absent).symm
  · rw [if_neg absent, Dict.get?_set]
    exact (if_congr (and_iff_right absent) rfl rfl).symm

theorem get?_kept_forwarded (positive : 1 ≤ count) (isTrusted : "forwarded".toList ∈ trusted) :
    (kept trusted count environ).get? "HTTP_FORWARDED".toList =
      (environ.get? "HTTP_FORWARDED".toList).map (lastElements count) := by
  have apart : (keepHost trusted count (keepFor trusted count environ)).get?
      "HTTP_FORWARDED".toList = environ.get? "HTTP_FORWARDED".toList :=
    (get?_keepHost (by decide)).trans (get?_keepFor (by decide))
  have read : readForwarded trusted environ = environ.getD "HTTP_FORWARDED".toList [] :=
    if_pos isTrusted
  rw [get?_kept, if_neg fun both => absurd both.2 (by decide), read, Dict.getD, apart]
  cases value : environ.get? "HTTP_FORWARDED".toList with
  | none => exact if_neg fun both => both.1 rfl
  | some value' =>
      by_cases empty : value' = []
      · subst empty
        have element : Str.split ',' [] = [[]] := rfl
        have all : (1 : Nat) - count.toNat = 0 := by omega
        have blank : lastElements count [] = [] := by
          rw [lastElements, trustedElements, sliceFrom_neg positive, element, List.length_singleton,
            all]
          rfl
        rw [if_neg fun both => both.1 rfl, Option.map_some, blank]
      · exact if_pos ⟨empty, rfl⟩

theorem get?_kept_list (positive : 1 ≤ count) {name key : String} (mem : (name, key) ∈ listHeaders)
    (isTrusted : name.toList ∈ trusted) : (kept trusted count environ).get? key.toList =
      (environ.get? key.toList).map (lastElements count) := by
  simp only [listHeaders, List.mem_cons, Prod.mk.injEq, List.not_mem_nil, or_false] at mem
  rcases mem with ⟨rfl, rfl⟩ | ⟨rfl, rfl⟩ | ⟨rfl, rfl⟩
  · rw [get?_kept, if_neg fun both => absurd both.2 (by decide),
      if_neg fun both => absurd both.2 (by decide), get?_keepHost (by decide)]
    exact get?_keepElements_own isTrusted environ
  · rw [get?_kept, if_neg fun both => absurd both.2 (by decide),
      if_neg fun both => absurd both.2 (by decide)]
    refine (get?_keepElements_own isTrusted _).trans ?_
    rw [get?_keepFor (by decide)]
  · exact get?_kept_forwarded positive isTrusted

theorem exists_header_of_mem : ∀ key ∈ proxyHeaders.map ("HTTP_".toList ++ ·),
    ∃ header ∈ singleHeaders ++ listHeaders, header.2.toList = key := by
  decide

theorem Agree.kept (agree : Agree trusted count first second) (exclusive : Exclusive trusted)
    (positive : 1 ≤ count) :
    AgreeOff ((ProxyHeaders.untrustedHeaders trusted first).map ("HTTP_".toList ++ ·))
      (kept trusted count first) (ProxyHeaders.kept trusted count second) := by
  intro key outside
  have proto : protoText trusted count first = protoText trusted count second :=
    congrArg Collected.forwardedProto (agree.gathered exclusive)
  by_cases listed : ∃ header ∈ listHeaders, header.2.toList = key
  · obtain ⟨header, mem, rfl⟩ := listed
    have isTrusted := trusted_of_not_cleared (List.mem_append_right singleHeaders mem) outside
    rw [get?_kept_list positive mem isTrusted, get?_kept_list positive mem isTrusted,
      agree.lasts mem isTrusted]
  · have other : ∀ header ∈ listHeaders, header.2.toList ≠ key :=
      fun header mem same => listed ⟨header, mem, same⟩
    have same : first.get? key = second.get? key := by
      by_cases proxied : key ∈ proxyHeaders.map ("HTTP_".toList ++ ·)
      · obtain ⟨header, mem, rfl⟩ := exists_header_of_mem key proxied
        rcases List.mem_append.mp mem with single | list
        · exact agree.singles header single (trusted_of_not_cleared mem outside)
        · exact absurd rfl (other header list)
      · exact agree.elsewhere key proxied
    have unread : ∀ environ : Environ, (ProxyHeaders.kept trusted count environ).get? key =
        if protoText trusted count environ ≠ [] ∧ "wsgi.url_scheme".toList = key then
          some (protoText trusted count environ)
        else environ.get? key := by
      intro environ
      have notForwarded := other ("forwarded", "HTTP_FORWARDED") (by decide)
      rw [get?_kept, get?_keepHost (other ("x-forwarded-host", _) (by decide)),
        get?_keepFor (other ("x-forwarded-for", _) (by decide)),
        if_neg (fun both : _ ∧ "HTTP_FORWARDED".toList = key => notForwarded both.2)]
    rw [unread, unread, proto, same]

/-! ### What the application receives -/

/-- No entry of a header is the scheme. -/
theorem scheme_not_cleared (untrusted : List Str) :
    "wsgi.url_scheme".toList ∉ untrusted.map ("HTTP_".toList ++ ·) := by
  intro mem
  obtain ⟨header, -, same⟩ := List.mem_map.mp mem
  exact absurd (List.cons.inj same).1 (by decide)

theorem Agree.rewritten (agree : Agree trusted count first second) (exclusive : Exclusive trusted)
    (positive : 1 ≤ count) :
    AgreeOff ((ProxyHeaders.untrustedHeaders trusted first).map ("HTTP_".toList ++ ·))
      (rewritten trusted count first) (ProxyHeaders.rewritten trusted count second) := by
  have start := agree.gathered exclusive
  have client : clientText trusted count first = clientText trusted count second :=
    congrArg Collected.clientAddr start
  have port : (withHostPort (ProxyHeaders.gathered trusted count first)).forwardedPort =
      (withHostPort (ProxyHeaders.gathered trusted count second)).forwardedPort := by
    rw [start, withHostPort, withHostPort]
    split
    · rfl
    · rfl
  have named : AgreeOff ((ProxyHeaders.untrustedHeaders trusted first).map ("HTTP_".toList ++ ·))
      (setHost (ProxyHeaders.gathered trusted count first) (ProxyHeaders.kept trusted count first))
      (setHost (ProxyHeaders.gathered trusted count second)
        (ProxyHeaders.kept trusted count second)) := by
    rw [start]
    exact (agree.kept exclusive positive).setHost (scheme_not_cleared _)
  have ported : AgreeOff ((ProxyHeaders.untrustedHeaders trusted first).map ("HTTP_".toList ++ ·))
      (numbered trusted count first) (numbered trusted count second) := by
    rw [numbered, numbered, port]
    split
    · exact named
    · exact named.set _ _
  rw [ProxyHeaders.rewritten, ProxyHeaders.rewritten, client]
  split
  · exact ported
  · exact ported.setClient _

/-- The call returns for both environments or for none, if their headers can be read. -/
theorem Agree.parseProxyHeaders (agree : Agree trusted count first second)
    (exclusive : Exclusive trusted) (positive : 1 ≤ count)
    (readable : Readable trusted count second) {untrusted : List Str} {after : Environ}
    (returned : exec (parseProxyHeaders trusted count) first = (.ok untrusted, after)) :
    ∃ after', exec (ProxyHeaders.parseProxyHeaders trusted count) second = (.ok untrusted, after') ∧
      AgreeOff (untrusted.map ("HTTP_".toList ++ ·)) after after' := by
  obtain ⟨-, scheme, hasAddress, rfl, rfl⟩ := (exec_parseProxyHeaders_ok_iff positive).mp returned
  refine ⟨ProxyHeaders.rewritten trusted count second, ?_, agree.rewritten exclusive positive⟩
  have start := agree.gathered exclusive
  have client : clientText trusted count first = clientText trusted count second :=
    congrArg Collected.clientAddr start
  refine (exec_parseProxyHeaders_ok_iff positive).mpr
    ⟨readable, fun needs => ?_, client ▸ hasAddress, agree.untrustedHeaders, rfl⟩
  rw [← agree.kept exclusive positive _ (scheme_not_cleared _)]
  refine scheme ?_
  rw [start]
  exact needs

theorem Agree.symm (agree : Agree trusted count first second) : Agree trusted count second first where
  elsewhere key outside := (agree.elsewhere key outside).symm
  singles header mem isTrusted := (agree.singles header mem isTrusted).symm
  lists header mem isTrusted := (agree.lists header mem isTrusted).symm

theorem exec_parseProxyHeaders_malformed (positive : 1 ≤ count)
    (unreadable : ¬ Readable trusted count environ) : ∃ header reason value after,
      exec (ProxyHeaders.parseProxyHeaders trusted count) environ =
        (.error (.malformedProxyHeader header reason value), after) := by
  rcases outcome : exec (gather trusted count) environ with ⟨exc | start, middle⟩
  · obtain ⟨header, reason, value, rfl⟩ := raisesOnly_gather environ _ _ outcome
    refine ⟨header, reason, value, middle, ?_⟩
    rw [ProxyHeaders.parseProxyHeaders, exec_get_bind, exec_bind, outcome]
  · exact absurd ((exec_gather_ok_iff positive).mp outcome).1 unreadable

end Trusted

namespace Middleware

variable {middleware : Middleware} {first second environ after : Environ}

def Trusts (middleware : Middleware) (environ : Environ) : Prop :=
  ∃ peer, environ.get? "REMOTE_ADDR".toList = some peer ∧
    (middleware.trustedProxy = some "*".toList ∨ middleware.trustedProxy = some peer)

def Translated.Rejected (translated : Translated) : Prop := ∃ error, translated = .badRequest error

theorem exec_prepare_trusted (trusts : middleware.Trusts environ)
    (clears : middleware.clearUntrusted = true) : exec middleware.prepare environ =
      match exec (parseProxyHeaders middleware.trustedProxyHeaders middleware.trustedProxyCount)
          environ with
      | (.ok untrusted, after) => (.ok (), clearUntrustedHeaders untrusted after)
      | (.error exc, after) => (.error exc, after) := by
  obtain ⟨peer, given, isTrusted⟩ := trusts
  rw [prepare, exec_bind, remotePeer, exec_get_bind, given]
  dsimp only
  rw [exec_pure]
  dsimp only
  rw [if_pos isTrusted, exec_bind]
  rcases exec (parseProxyHeaders middleware.trustedProxyHeaders middleware.trustedProxyCount)
    environ with ⟨exc | untrusted, after⟩
  · rfl
  · dsimp only
    rw [if_pos clears, exec_modify]

theorem exec_prepare_untrusted (trusts : ¬ middleware.Trusts environ)
    (clears : middleware.clearUntrusted = true) : exec middleware.prepare environ =
      match environ.get? "REMOTE_ADDR".toList with
      | some _ => (.ok (), clearUntrustedHeaders proxyHeaders environ)
      | none => (.error (.keyError "REMOTE_ADDR".toList), environ) := by
  rw [prepare, exec_bind, remotePeer, exec_get_bind]
  cases given : environ.get? "REMOTE_ADDR".toList with
  | none => rfl
  | some peer =>
      have isUntrusted := fun isTrusted => trusts ⟨peer, given, isTrusted⟩
      dsimp only
      rw [exec_pure]
      dsimp only
      rw [if_neg isUntrusted, exec_bind, exec_pure]
      dsimp only
      rw [if_pos clears, exec_modify]

/-- What a trusted proxy has sent is received as the call leaves it. -/
theorem received_translate (trusts : middleware.Trusts environ)
    (clears : middleware.clearUntrusted = true) : (middleware.translate environ).received =
      match exec (parseProxyHeaders middleware.trustedProxyHeaders middleware.trustedProxyCount)
          environ with
      | (.ok untrusted, after) => some (clearUntrustedHeaders untrusted after)
      | (.error _, _) => none := by
  rw [translate, exec_prepare_trusted trusts clears]
  rcases exec (parseProxyHeaders middleware.trustedProxyHeaders middleware.trustedProxyCount)
    environ with ⟨exc | untrusted, after⟩
  · cases exc with
    | malformedProxyHeader header reason value => rfl
    | valueError message => rfl
    | indexError message => rfl
    | keyError key => rfl
  · rfl

theorem readable_of_not_rejected (positive : 1 ≤ middleware.trustedProxyCount)
    (trusts : middleware.Trusts environ) (clears : middleware.clearUntrusted = true)
    (accepted : ¬ (middleware.translate environ).Rejected) :
    Readable middleware.trustedProxyHeaders middleware.trustedProxyCount environ := by
  by_contra unreadable
  obtain ⟨header, reason, value, after, raised⟩ :=
    exec_parseProxyHeaders_malformed positive unreadable
  refine accepted ⟨.badRequest ("Header \"".toList ++ header ++ "\" malformed.".toList), ?_⟩
  rw [translate, exec_prepare_trusted trusts clears, raised]

/-- **Nothing that no trusted proxy has set reaches the application.** -/
theorem translate_noninterference {given : List Str}
    (adjusted : adjustTrusted middleware.trustedProxy given = .ok middleware.trustedProxyHeaders)
    (positive : 1 ≤ middleware.trustedProxyCount) (clears : middleware.clearUntrusted = true)
    (elsewhere : SameElsewhere first second) :
    (¬ middleware.Trusts first →
      (middleware.translate first).received.map Dict.get? =
        (middleware.translate second).received.map Dict.get?) ∧
    (middleware.Trusts first → SameSingles middleware.trustedProxyHeaders first second →
      SameLists middleware.trustedProxyHeaders middleware.trustedProxyCount first second →
      ¬ (middleware.translate first).Rejected → ¬ (middleware.translate second).Rejected →
      (middleware.translate first).received.map Dict.get? =
        (middleware.translate second).received.map Dict.get?) := by
  have exclusive := adjustTrusted_exclusive adjusted
  have peers : first.get? "REMOTE_ADDR".toList = second.get? "REMOTE_ADDR".toList :=
    elsewhere _ (by decide)
  constructor
  · intro untrusted
    have untrusted' : ¬ middleware.Trusts second := by
      rwa [Trusts, ← peers]
    rw [translate, translate, exec_prepare_untrusted untrusted clears,
      exec_prepare_untrusted untrusted' clears, ← peers]
    cases first.get? "REMOTE_ADDR".toList with
    | none => rfl
    | some peer => exact congrArg some (AgreeOff.clear elsewhere)
  · intro trusts singles lists accepted accepted'
    have trusts' : middleware.Trusts second := by
      rwa [Trusts, ← peers]
    have agree : Agree _ _ first second := ⟨elsewhere, singles, lists⟩
    have readable := readable_of_not_rejected positive trusts clears accepted
    have readable' := readable_of_not_rejected positive trusts' clears accepted'
    rw [received_translate trusts clears, received_translate trusts' clears]
    rcases outcome : exec (parseProxyHeaders middleware.trustedProxyHeaders
      middleware.trustedProxyCount) first with ⟨exc | untrusted, after⟩
    · rcases outcome' : exec (parseProxyHeaders middleware.trustedProxyHeaders
        middleware.trustedProxyCount) second with ⟨exc' | untrusted, after'⟩
      · rfl
      · obtain ⟨_, back, -⟩ := agree.symm.parseProxyHeaders exclusive positive readable outcome'
        rw [outcome] at back
        cases (Prod.mk.inj back).1
    · obtain ⟨after', returned, same⟩ :=
        agree.parseProxyHeaders exclusive positive readable' outcome
      rw [returned]
      exact congrArg some same.clear

/-- A proxy was asked by `192.0.2.1`, which may have made up the rest of the header. -/
def chainEnviron (madeUp : String) : Environ :=
  Dict.set ⟨[("REMOTE_ADDR".toList, "10.0.0.1".toList), ("wsgi.url_scheme".toList, "http".toList)]⟩
    "HTTP_X_FORWARDED_FOR".toList (madeUp.toList ++ ", 192.0.2.1".toList)

def chainMiddleware : Middleware where
  trustedProxy := some "10.0.0.1".toList
  trustedProxyHeaders := ["x-forwarded-for".toList]

theorem chain_not_rejected (madeUp : String)
    (received : (chainMiddleware.translate (chainEnviron madeUp)).received.isSome = true) :
    ¬ (chainMiddleware.translate (chainEnviron madeUp)).Rejected := by
  rintro ⟨error, rejected⟩
  rw [rejected] at received
  cases received

theorem translate_noninterference_chain :
    (chainMiddleware.translate (chainEnviron "127.0.0.1")).received.map Dict.get? =
      (chainMiddleware.translate (chainEnviron "198.51.100.7, 10.0.0.9")).received.map Dict.get? := by
  have elsewhere : SameElsewhere (chainEnviron "127.0.0.1")
      (chainEnviron "198.51.100.7, 10.0.0.9") := by
    intro key outside
    have other : "HTTP_X_FORWARDED_FOR".toList ≠ key := by
      rintro rfl
      exact outside (by decide)
    rw [chainEnviron, chainEnviron, Dict.get?_set, Dict.get?_set, if_neg other, if_neg other]
  refine (translate_noninterference (show adjustTrusted (some "10.0.0.1".toList)
    ["X-Forwarded-For".toList] = .ok chainMiddleware.trustedProxyHeaders by decide) (by decide) rfl
    elsewhere).2 ⟨"10.0.0.1".toList, by decide, .inr rfl⟩ (by decide) (by decide) ?_ ?_
  · exact chain_not_rejected _ (by decide +kernel)
  · exact chain_not_rejected _ (by decide +kernel)

end Middleware

end Waitress.ProxyHeaders
