import Waitress.ProxyHeaders
import Waitress.Python.Text

/-!
# What the trusted headers say

`Readable` says that every trusted header is well formed, and `gathered` what
the headers come to, both as functions of the environment before the call.
`gather_eq_ok_iff` connects them to the code: the headers are read exactly if
they are readable, and otherwise one of them is reported as malformed.
-/

namespace Waitress.ProxyHeaders

open Raising

/-! ### Slices -/

section Slices

variable {α β : Type} {count : Int}

theorem sliceFrom_map (f : α → β) (xs : List α) (start : Int) :
    sliceFrom (xs.map f) start = (sliceFrom xs start).map f := by
  rw [sliceFrom, sliceFrom]
  split
  · rw [List.map_drop, List.length_map]
  · rw [List.map_drop]

theorem sliceFrom_neg (positive : 1 ≤ count) (xs : List α) :
    sliceFrom xs (-count) = xs.drop (xs.length - count.toNat) := by
  have negative : -count < 0 := by omega
  have length : ((xs.length : Int) + -count).toNat = xs.length - count.toNat := by omega
  rw [sliceFrom, if_pos negative, length]

theorem getLast?_sliceFrom (positive : 1 ≤ count) (xs : List α) :
    (sliceFrom xs (-count)).getLast? = xs.getLast? := by
  rw [sliceFrom_neg positive, List.getLast?_drop]
  cases xs with
  | nil => rfl
  | cons x xs =>
      have shorter : ¬(x :: xs).length ≤ (x :: xs).length - count.toNat := by
        rw [List.length_cons]
        omega
      rw [if_neg shorter]

theorem sliceFrom_subset (xs : List α) (start : Int) : sliceFrom xs start ⊆ xs := by
  rw [sliceFrom]
  split
  · exact List.drop_subset _ xs
  · exact List.drop_subset _ xs

end Slices

/-! ### The reading of the inputs -/

section Inputs

variable (trusted : List Str) (count : Int) (environ : Environ)

/-- What the oldest trusted element of a header stands for. -/
def oldestText (name key : String) (read : Str → Except ProxyExc Str) : Option Str :=
  (trustedValue trusted name key environ).bind fun value =>
    (trustedElements count value).head?.bind fun element => (read element).toOption

def given (field : Forwarded → Str) (proxy : Forwarded) : Option Str :=
  if field proxy = [] then none else some (field proxy)

def pairText (field : Forwarded → Str) (element : Str) : Option Str :=
  (forwardedElement element).toOption.bind (given field)

def forwardedText (field : Forwarded → Str) : Option Str :=
  (trustedElements count (readForwarded trusted environ)).findSome? (pairText field)

def clientText : Option Str :=
  (forwardedText trusted count environ Forwarded.forFor).or
    (oldestText trusted count environ "x-forwarded-for" "HTTP_X_FORWARDED_FOR" forwardHop)

/-- The host, from `Forwarded` if that is present and otherwise from `X-Forwarded-Host`. -/
def hostText : Str :=
  if readForwarded trusted environ = [] then
    (oldestText trusted count environ "x-forwarded-host" "HTTP_X_FORWARDED_HOST" forwardHost).getD []
  else (forwardedText trusted count environ Forwarded.host).getD []

def singleText (name key : String) : Str :=
  ((trustedValue trusted name key environ).bind fun value => (undquote value).toOption).getD []

def protoText : Str :=
  Str.lower
    (if readForwarded trusted environ = [] then
      singleText trusted environ "x-forwarded-proto" "HTTP_X_FORWARDED_PROTO"
    else (forwardedText trusted count environ Forwarded.proto).getD [])

/-- The port of `X-Forwarded-Port`, which does not count beside `Forwarded`. -/
def portText : Str :=
  if readForwarded trusted environ = [] then
    singleText trusted environ "x-forwarded-port" "HTTP_X_FORWARDED_PORT"
  else []

structure ReadableApart : Prop where
  hops : ∀ value ∈ trustedValue trusted "x-forwarded-for" "HTTP_X_FORWARDED_FOR" environ,
    ∀ element ∈ Str.split ',' value, ∃ hop, undquote (Str.strip element) = .ok hop
  hosts : ∀ value ∈ trustedValue trusted "x-forwarded-host" "HTTP_X_FORWARDED_HOST" environ,
    ∀ element ∈ Str.split ',' value, ∃ host, undquote (Str.strip element) = .ok host
  proto : ∀ value ∈ trustedValue trusted "x-forwarded-proto" "HTTP_X_FORWARDED_PROTO" environ,
    ∃ proto, undquote value = .ok proto ∧ ',' ∉ proto
  port : ∀ value ∈ trustedValue trusted "x-forwarded-port" "HTTP_X_FORWARDED_PORT" environ,
    ∃ port, undquote value = .ok port ∧ ',' ∉ port

structure Readable : Prop extends ReadableApart trusted environ where
  forwarded : readForwarded trusted environ ≠ [] →
    ∀ element ∈ Str.split ',' (readForwarded trusted environ),
      ∃ proxy, forwardedElement element = .ok proxy
  scheme : protoText trusted count environ ∈ [[], "http".toList, "https".toList]

def gathered : Collected where
  forwardedHost := hostText trusted count environ
  forwardedProto := protoText trusted count environ
  forwardedPort :=
    if portText trusted environ = [] then
      if protoText trusted count environ = "http".toList then "80".toList
      else if protoText trusted count environ = "https".toList then "443".toList
      else []
    else portText trusted environ
  forwarded := readForwarded trusted environ
  clientAddr := clientText trusted count environ

/-- The environment when the headers have been read. -/
def kept : Environ :=
  let apart := keepHost trusted count (keepFor trusted count environ)
  let after :=
    if readForwarded trusted environ = [] then apart
    else apart.set "HTTP_FORWARDED".toList (lastElements count (readForwarded trusted environ))
  if protoText trusted count environ = [] then after
  else after.set "wsgi.url_scheme".toList (protoText trusted count environ)

end Inputs

/-! ### Each header by itself -/

section Headers

variable {trusted : List Str} {count : Int} {environ : Environ}

theorem get?_keepElements {name key : String} {other : Str} (different : key.toList ≠ other) :
    (keepElements trusted count name key environ).get? other = environ.get? other := by
  rw [keepElements]
  cases trustedValue trusted name key environ with
  | none => rfl
  | some value =>
      dsimp only
      rw [Dict.get?_set, if_neg different]

theorem trustedValue_congr {name key : String} {other : Environ}
    (same : other.get? key.toList = environ.get? key.toList) :
    trustedValue trusted name key other = trustedValue trusted name key environ := by
  rw [trustedValue, trustedValue, same]

theorem orMalformed_eq_ok_iff {Value : Type} {header value : Str} {result : Except ProxyExc Value}
    {out : Value} : orMalformed header value result = .ok out ↔ result = .ok out := by
  cases result with
  | ok given => exact Iff.rfl
  | error exc =>
      constructor
      · rintro ⟨⟩
      · rintro ⟨⟩

theorem unquoted_eq_ok_iff {value text : Str} :
    unquoted value = .ok text ↔ undquote value = .ok text := by
  rw [unquoted]
  cases undquote value with
  | ok given => simp
  | error message => simp

theorem exists_forwardHop {element : Str} :
    (∃ hop, forwardHop element = .ok hop) ↔ ∃ hop, undquote (Str.strip element) = .ok hop := by
  rw [forwardHop]
  constructor
  · rintro ⟨hop, read⟩
    cases stripped : unquoted (Str.strip element) with
    | ok text => exact ⟨text, unquoted_eq_ok_iff.mp stripped⟩
    | error exc =>
        rw [stripped] at read
        cases read
  · rintro ⟨hop, stripped⟩
    rw [unquoted_eq_ok_iff.mpr stripped]
    dsimp only
    split
    · exact ⟨_, rfl⟩
    · exact ⟨_, rfl⟩

theorem exists_forwardHost {element : Str} :
    (∃ host, forwardHost element = .ok host) ↔
      ∃ host, undquote (Str.strip element) = .ok host := by
  simp only [forwardHost, unquoted_eq_ok_iff]

theorem head?_trustedElements (positive : 1 ≤ count) (value : Str) :
    ∃ element ∈ Str.split ',' value, (trustedElements count value).head? = some element := by
  cases elements : trustedElements count value with
  | nil =>
      have last := getLast?_sliceFrom positive (Str.split ',' value)
      rw [show sliceFrom (Str.split ',' value) (-count) = [] from elements] at last
      exact absurd (List.getLast?_eq_none_iff.mp last.symm) (Str.split_ne_nil ',' value)
  | cons element rest =>
      have mem : element ∈ trustedElements count value := by rw [elements]; exact List.mem_cons_self
      exact ⟨element, sliceFrom_subset _ _ mem, rfl⟩

/-- The values of the trusted elements are the trusted values. -/
theorem head?_sliceFrom_of_mapM {read : Str → Except ProxyExc Str} {elements texts : List Str}
    (mapped : elements.mapM read = .ok texts) (start : Int) :
    (sliceFrom elements start).head?.map read = (sliceFrom texts start).head?.map .ok := by
  have slices := congrArg (sliceFrom · start) ((mapM_eq_ok_iff read _ _).mp mapped)
  have heads := congrArg List.head? slices
  simpa only [sliceFrom_map, List.head?_map] using heads

theorem oldestElement_eq_ok_iff (positive : 1 ≤ count) {read : Str → Except ProxyExc Str}
    {value text : Str} :
    oldestElement read count value = .ok text ↔
      (∀ element ∈ Str.split ',' value, ∃ text, read element = .ok text) ∧
      (trustedElements count value).head?.bind (fun element => (read element).toOption) =
        some text := by
  obtain ⟨oldest, mem, first⟩ := head?_trustedElements positive value
  rw [oldestElement, first, Option.bind_some, ← exists_mapM_eq_ok_iff]
  cases mapped : (Str.split ',' value).mapM read with
  | error exc =>
      constructor
      · rintro ⟨⟩
      · rintro ⟨⟨_, ⟨⟩⟩, -⟩
  | ok texts =>
      have heads := head?_sliceFrom_of_mapM mapped (-count)
      rw [show (sliceFrom (Str.split ',' value) (-count)).head? = some oldest from first] at heads
      dsimp only
      cases chosen : (sliceFrom texts (-count)).head? with
      | none =>
          rw [chosen] at heads
          cases heads
      | some other =>
          rw [chosen] at heads
          have readOldest : read oldest = .ok other := Option.some.inj heads
          rw [readOldest]
          constructor
          · rintro ⟨⟩
            exact ⟨⟨texts, rfl⟩, rfl⟩
          · rintro ⟨-, ⟨⟩⟩
            rfl

theorem readElement_eq_ok_iff (positive : 1 ≤ count) {name header key : String}
    {read : Str → Except ProxyExc Str} {result : Option Str} :
    readElement trusted count name header key read environ = .ok result ↔
      (∀ value ∈ trustedValue trusted name key environ,
        ∀ element ∈ Str.split ',' value, ∃ text, read element = .ok text) ∧
      oldestText trusted count environ name key read = result := by
  rw [readElement, oldestText]
  cases trustedValue trusted name key environ with
  | none =>
      constructor
      · rintro ⟨⟩
        exact ⟨fun value mem => absurd mem (by simp), rfl⟩
      · rintro ⟨-, rfl⟩
        rfl
  | some value =>
      dsimp only
      rw [Option.bind_some]
      constructor
      · intro outcome
        cases chosen : oldestElement read count value with
        | error exc =>
            rw [chosen] at outcome
            cases outcome
        | ok text =>
            rw [chosen] at outcome
            cases outcome
            obtain ⟨each, oldest⟩ := (oldestElement_eq_ok_iff positive).mp chosen
            exact ⟨fun other mem => by cases mem; exact each, oldest⟩
      · rintro ⟨each, oldest⟩
        obtain ⟨element, mem, first⟩ := head?_trustedElements positive value
        obtain ⟨text, readText⟩ := each value rfl element mem
        have isOldest : (trustedElements count value).head?.bind
            (fun element => (read element).toOption) = some text := by
          rw [first, Option.bind_some, readText]
          rfl
        rw [(oldestElement_eq_ok_iff positive).mpr ⟨each value rfl, isOldest⟩]
        rw [isOldest] at oldest
        cases oldest
        rfl

theorem singleValue_eq_ok_iff {value text : Str} :
    singleValue value = .ok text ↔ undquote value = .ok text ∧ ',' ∉ text := by
  rw [singleValue]
  cases unquotes : unquoted value with
  | error exc =>
      constructor
      · rintro ⟨⟩
      · rintro ⟨returned, -⟩
        rw [unquoted_eq_ok_iff.mpr returned] at unquotes
        cases unquotes
  | ok given =>
      rw [unquoted_eq_ok_iff.mp unquotes]
      dsimp only
      split
      · next isList =>
          constructor
          · rintro ⟨⟩
          · rintro ⟨⟨⟩, single⟩
            exact absurd isList single
      · next single =>
          constructor
          · rintro ⟨⟩
            exact ⟨rfl, single⟩
          · rintro ⟨⟨⟩, -⟩
            rfl

theorem readSingle_eq_ok_iff {name header key : String} {text : Str} :
    readSingle trusted name header key environ = .ok text ↔
      (∀ value ∈ trustedValue trusted name key environ,
        ∃ text, undquote value = .ok text ∧ ',' ∉ text) ∧
      singleText trusted environ name key = text := by
  rw [readSingle, singleText]
  cases trustedValue trusted name key environ with
  | none =>
      constructor
      · rintro ⟨⟩
        exact ⟨fun value mem => absurd mem (by simp), rfl⟩
      · rintro ⟨-, rfl⟩
        rfl
  | some value =>
      rw [Option.getD_some, Option.bind_some, orMalformed_eq_ok_iff, singleValue_eq_ok_iff]
      constructor
      · rintro ⟨unquotes, single⟩
        refine ⟨fun other mem => ?_, by rw [unquotes]; rfl⟩
        cases mem
        exact ⟨text, unquotes, single⟩
      · rintro ⟨each, same⟩
        obtain ⟨other, unquotes, single⟩ := each value rfl
        rw [unquotes] at same
        cases same
        exact ⟨unquotes, single⟩

end Headers

/-! ### The headers in turn -/

def IsMalformed (exc : ProxyExc) : Prop :=
  ∃ header reason value, exc = .malformedProxyHeader header reason value

theorem isMalformed_of_orMalformed {Value : Type} {header value : Str}
    {result : Except ProxyExc Value} {exc : ProxyExc}
    (raised : orMalformed header value result = .error exc) : IsMalformed exc := by
  cases result with
  | ok value => cases raised
  | error inner =>
      cases raised
      exact ⟨header, inner.message, value, rfl⟩

section Collecting

variable {trusted : List Str} {count : Int} {environ after : Environ}

theorem isMalformed_of_readElement {name header key : String} {read : Str → Except ProxyExc Str}
    {exc : ProxyExc}
    (raised : readElement trusted count name header key read environ = .error exc) :
    IsMalformed exc := by
  rw [readElement] at raised
  cases found : trustedValue trusted name key environ with
  | none =>
      rw [found] at raised
      cases raised
  | some value =>
      rw [found] at raised
      dsimp only at raised
      cases outcome : orMalformed header.toList value (oldestElement read count value) with
      | ok text =>
          rw [outcome] at raised
          cases raised
      | error inner =>
          rw [outcome] at raised
          cases raised
          exact isMalformed_of_orMalformed outcome

theorem raisesOnly_collect : RaisesOnly IsMalformed (collect trusted count) := by
  refine raisesOnly_bind raisesOnly_get fun _ => ?_
  refine raisesOnly_bind (raisesOnly_ofExcept fun _ => isMalformed_of_readElement) fun _ => ?_
  refine raisesOnly_bind (raisesOnly_modify _) fun _ => ?_
  refine raisesOnly_bind raisesOnly_get fun _ => ?_
  refine raisesOnly_bind (raisesOnly_ofExcept fun _ => isMalformed_of_readElement) fun _ => ?_
  refine raisesOnly_bind (raisesOnly_modify _) fun _ => ?_
  refine raisesOnly_bind raisesOnly_get fun _ => ?_
  refine raisesOnly_bind (raisesOnly_ofExcept fun _ => isMalformed_of_orMalformed) fun _ => ?_
  refine raisesOnly_bind raisesOnly_get fun _ => ?_
  refine raisesOnly_bind (raisesOnly_ofExcept fun _ => isMalformed_of_orMalformed) fun _ => ?_
  exact raisesOnly_bind raisesOnly_get fun _ => raisesOnly_pure _

/-- What the headers other than `Forwarded` come to. -/
def collected (trusted : List Str) (count : Int) (environ : Environ) : Collected where
  forwardedHost :=
    (oldestText trusted count environ "x-forwarded-host" "HTTP_X_FORWARDED_HOST" forwardHost).getD []
  forwardedProto := singleText trusted environ "x-forwarded-proto" "HTTP_X_FORWARDED_PROTO"
  forwardedPort := singleText trusted environ "x-forwarded-port" "HTTP_X_FORWARDED_PORT"
  forwarded := readForwarded trusted environ
  clientAddr := oldestText trusted count environ "x-forwarded-for" "HTTP_X_FORWARDED_FOR" forwardHop

theorem get?_keepFor {other : Str} (different : "HTTP_X_FORWARDED_FOR".toList ≠ other) :
    (keepFor trusted count environ).get? other = environ.get? other :=
  get?_keepElements different

theorem get?_keepHost {other : Str} (different : "HTTP_X_FORWARDED_HOST".toList ≠ other) :
    (keepHost trusted count environ).get? other = environ.get? other :=
  get?_keepElements different

/-- The later headers are read as if the earlier ones had not been rewritten. -/
theorem readHost_keepFor :
    readHost trusted count (keepFor trusted count environ) = readHost trusted count environ := by
  have same : trustedValue trusted "x-forwarded-host" "HTTP_X_FORWARDED_HOST"
      (keepFor trusted count environ) =
      trustedValue trusted "x-forwarded-host" "HTTP_X_FORWARDED_HOST" environ :=
    trustedValue_congr (get?_keepFor (by decide))
  rw [readHost, readElement, readElement, same]

theorem readSingle_kept {name header key : String}
    (notFor : "HTTP_X_FORWARDED_FOR".toList ≠ key.toList)
    (notHost : "HTTP_X_FORWARDED_HOST".toList ≠ key.toList) :
    readSingle trusted name header key (keepHost trusted count (keepFor trusted count environ)) =
      readSingle trusted name header key environ := by
  have same : trustedValue trusted name key (keepHost trusted count (keepFor trusted count environ)) =
      trustedValue trusted name key environ :=
    trustedValue_congr ((get?_keepHost notHost).trans (get?_keepFor notFor))
  rw [readSingle, readSingle, same]

theorem readForwarded_kept :
    readForwarded trusted (keepHost trusted count (keepFor trusted count environ)) =
      readForwarded trusted environ := by
  have same : (keepHost trusted count (keepFor trusted count environ)).get?
      "HTTP_FORWARDED".toList = environ.get? "HTTP_FORWARDED".toList :=
    (get?_keepHost (by decide)).trans (get?_keepFor (by decide))
  rw [readForwarded, readForwarded, Dict.getD, Dict.getD, same]

theorem exec_collect :
    exec (collect trusted count) environ =
      match readFor trusted count environ with
      | .error exc => (.error exc, environ)
      | .ok client =>
          match readHost trusted count environ with
          | .error exc => (.error exc, keepFor trusted count environ)
          | .ok host =>
              let kept := keepHost trusted count (keepFor trusted count environ)
              match readProto trusted environ with
              | .error exc => (.error exc, kept)
              | .ok proto =>
                  match readPort trusted environ with
                  | .error exc => (.error exc, kept)
                  | .ok port =>
                      (.ok {
                        forwardedHost := host.getD []
                        forwardedProto := proto
                        forwardedPort := port
                        forwarded := readForwarded trusted environ
                        clientAddr := client }, kept) := by
  have proto : readProto trusted (keepHost trusted count (keepFor trusted count environ)) =
      readProto trusted environ := readSingle_kept (by decide) (by decide)
  have port : readPort trusted (keepHost trusted count (keepFor trusted count environ)) =
      readPort trusted environ := readSingle_kept (by decide) (by decide)
  rw [collect, exec_get_bind, exec_bind, exec_ofExcept]
  cases readFor trusted count environ with
  | error exc => rfl
  | ok client =>
      dsimp only
      rw [exec_modify_bind, exec_get_bind, exec_bind, exec_ofExcept, readHost_keepFor]
      cases readHost trusted count environ with
      | error exc => rfl
      | ok host =>
          dsimp only
          rw [exec_modify_bind, exec_get_bind, exec_bind, exec_ofExcept, proto]
          cases readProto trusted environ with
          | error exc => rfl
          | ok proto =>
              dsimp only
              rw [exec_get_bind, exec_bind, exec_ofExcept, port]
              cases readPort trusted environ with
              | error exc => rfl
              | ok port =>
                  dsimp only
                  rw [exec_get_bind, readForwarded_kept]
                  rfl

theorem exec_collect_ok_iff (positive : 1 ≤ count) {out : Collected} :
    exec (collect trusted count) environ = (.ok out, after) ↔
      ReadableApart trusted environ ∧ out = collected trusted count environ ∧
      after = keepHost trusted count (keepFor trusted count environ) := by
  rw [exec_collect]
  constructor
  · intro result
    cases client : readFor trusted count environ with
    | error exc =>
        rw [client] at result
        cases (Prod.mk.inj result).1
    | ok clientAddr =>
        rw [client] at result
        cases host : readHost trusted count environ with
        | error exc =>
            rw [host] at result
            cases (Prod.mk.inj result).1
        | ok forwardedHost =>
            rw [host] at result
            cases proto : readProto trusted environ with
            | error exc =>
                rw [proto] at result
                cases (Prod.mk.inj result).1
            | ok forwardedProto =>
                rw [proto] at result
                cases port : readPort trusted environ with
                | error exc =>
                    rw [port] at result
                    cases (Prod.mk.inj result).1
                | ok forwardedPort =>
                    rw [port] at result
                    obtain ⟨hops, oldestHop⟩ := (readElement_eq_ok_iff positive).mp client
                    obtain ⟨hosts, oldestHost⟩ := (readElement_eq_ok_iff positive).mp host
                    obtain ⟨protoReads, protoIs⟩ := readSingle_eq_ok_iff.mp proto
                    obtain ⟨portReads, portIs⟩ := readSingle_eq_ok_iff.mp port
                    obtain ⟨same, rfl⟩ := Prod.mk.inj result
                    refine ⟨⟨?_, ?_, protoReads, portReads⟩, ?_, rfl⟩
                    · exact fun value mem element inside =>
                        exists_forwardHop.mp (hops value mem element inside)
                    · exact fun value mem element inside =>
                        exists_forwardHost.mp (hosts value mem element inside)
                    · rw [collected, oldestHop, oldestHost, protoIs, portIs]
                      exact (Except.ok.inj same).symm
  · rintro ⟨readable, rfl, rfl⟩
    have client : readFor trusted count environ = .ok _ :=
      (readElement_eq_ok_iff positive).mpr ⟨fun value mem element inside =>
        exists_forwardHop.mpr (readable.hops value mem element inside), rfl⟩
    have host : readHost trusted count environ = .ok _ :=
      (readElement_eq_ok_iff positive).mpr ⟨fun value mem element inside =>
        exists_forwardHost.mpr (readable.hosts value mem element inside), rfl⟩
    have proto : readProto trusted environ = .ok _ :=
      readSingle_eq_ok_iff.mpr ⟨readable.proto, rfl⟩
    have port : readPort trusted environ = .ok _ :=
      readSingle_eq_ok_iff.mpr ⟨readable.port, rfl⟩
    rw [client, host, proto, port]
    rfl

end Collecting

/-! ### The `Forwarded` header -/

section Priority

variable {trusted : List Str} {count : Int} {environ after : Environ}

theorem foldl_fillIn (proxies : List Forwarded) (start : Collected) :
    proxies.reverse.foldl fillIn start =
      { start with
        clientAddr := (proxies.findSome? (given Forwarded.forFor)).or start.clientAddr
        forwardedHost := (proxies.findSome? (given Forwarded.host)).getD start.forwardedHost
        forwardedProto :=
          (proxies.findSome? (given Forwarded.proto)).getD start.forwardedProto } := by
  rw [List.foldl_reverse]
  induction proxies with
  | nil => rfl
  | cons proxy proxies inductionHypothesis =>
      rw [List.foldr_cons, inductionHypothesis, fillIn, orElse, orElse]
      simp only [List.findSome?_cons, given]
      by_cases client : proxy.forFor = [] <;> by_cases host : proxy.host = [] <;>
        by_cases proto : proxy.proto = [] <;> simp [client, host, proto]

theorem findSome?_pairText {elements : List Str} {proxies : List Forwarded}
    (read : elements.mapM forwardedElement = .ok proxies) (start : Int)
    (field : Forwarded → Str) :
    (sliceFrom elements start).findSome? (pairText field) =
      (sliceFrom proxies start).findSome? (given field) := by
  have mapped := congrArg (sliceFrom · start) ((mapM_eq_ok_iff forwardedElement _ _).mp read)
  simp only [sliceFrom_map] at mapped
  have found := congrArg
    (List.findSome? fun proxy : Except ProxyExc Forwarded => proxy.toOption.bind (given field))
    mapped
  rw [List.findSome?_map, List.findSome?_map] at found
  exact found

/-- The values that the loop over the elements leaves are those of a trusted element. -/
theorem findSome?_given_last (positive : 1 ≤ count) (proxies : List Forwarded)
    (field : Forwarded → Str) (default : field {} = []) :
    ((sliceFrom proxies (-count)).findSome? (given field)).getD
      (field (proxies.getLast?.getD {})) =
      ((sliceFrom proxies (-count)).findSome? (given field)).getD [] := by
  cases found : (sliceFrom proxies (-count)).findSome? (given field) with
  | some text => rfl
  | none =>
      rw [← getLast?_sliceFrom positive, Option.getD_none, Option.getD_none]
      cases last : (sliceFrom proxies (-count)).getLast? with
      | none => exact default
      | some proxy =>
          have absent := List.findSome?_eq_none_iff.mp found proxy (List.mem_of_getLast? last)
          rw [given] at absent
          split at absent
          · assumption
          · cases absent

def withForwarded (count : Int) (start : Collected) : Collected :=
  let elements := trustedElements count start.forwarded
  if start.forwarded = [] then start
  else
    { start with
      clientAddr := (elements.findSome? (pairText Forwarded.forFor)).or start.clientAddr
      forwardedHost := (elements.findSome? (pairText Forwarded.host)).getD []
      forwardedProto := (elements.findSome? (pairText Forwarded.proto)).getD []
      forwardedPort := [] }

theorem raisesOnly_applyForwarded (start : Collected) :
    RaisesOnly IsMalformed (applyForwarded count start) := by
  rw [applyForwarded]
  split
  · exact raisesOnly_pure _
  · refine raisesOnly_bind (raisesOnly_ofExcept fun _ => isMalformed_of_orMalformed) fun _ => ?_
    exact raisesOnly_bind (raisesOnly_modify _) fun _ => raisesOnly_pure _

theorem exec_applyForwarded_ok_iff (positive : 1 ≤ count) {start out : Collected} :
    exec (applyForwarded count start) environ = (.ok out, after) ↔
      (start.forwarded ≠ [] → ∀ element ∈ Str.split ',' start.forwarded,
        ∃ proxy, forwardedElement element = .ok proxy) ∧
      out = withForwarded count start ∧
      after = if start.forwarded = [] then environ
        else environ.set "HTTP_FORWARDED".toList (lastElements count start.forwarded) := by
  rw [applyForwarded, withForwarded]
  by_cases absent : start.forwarded = []
  · rw [if_pos absent, if_pos absent, if_pos absent, exec_pure]
    constructor
    · rintro ⟨⟩
      exact ⟨fun present => absurd absent present, rfl, rfl⟩
    · rintro ⟨-, rfl, rfl⟩
      rfl
  · rw [if_neg absent, if_neg absent, if_neg absent, exec_bind, exec_ofExcept,
      ← exists_mapM_eq_ok_iff]
    cases read : (Str.split ',' start.forwarded).mapM forwardedElement with
    | error exc =>
        constructor
        · intro result
          cases (Prod.mk.inj result).1
        · rintro ⟨readable, -⟩
          obtain ⟨_, ⟨⟩⟩ := readable absent
    | ok proxies =>
        rw [orMalformed]
        dsimp only
        rw [exec_modify_bind, exec_pure, foldl_fillIn]
        have text := findSome?_pairText read (-count)
        rw [trustedElements, text, text, text]
        dsimp only
        rw [findSome?_given_last positive proxies Forwarded.host rfl,
          findSome?_given_last positive proxies Forwarded.proto rfl]
        constructor
        · rintro ⟨⟩
          exact ⟨fun _ => ⟨proxies, rfl⟩, rfl, rfl⟩
        · rintro ⟨-, rfl, rfl⟩
          rfl

end Priority

/-! ### All trusted headers -/

section Gathering

variable {trusted : List Str} {count : Int} {environ after : Environ}

theorem raisesOnly_applyProto (start : Collected) : RaisesOnly IsMalformed (applyProto start) := by
  rw [applyProto]
  split
  · exact raisesOnly_pure _
  · dsimp only
    split
    · exact raisesOnly_bind (raisesOnly_throw ⟨_, _, _, rfl⟩) fun _ =>
        raisesOnly_bind (raisesOnly_modify _) fun _ => by
          split
          · exact raisesOnly_pure _
          · exact raisesOnly_pure _
    · refine raisesOnly_bind (raisesOnly_modify _) fun _ => ?_
      split
      · exact raisesOnly_pure _
      · exact raisesOnly_pure _

def withProto (start : Collected) : Collected :=
  let proto := Str.lower start.forwardedProto
  { start with
    forwardedProto := proto
    forwardedPort :=
      if start.forwardedPort = [] then
        if proto = "http".toList then "80".toList
        else if proto = "https".toList then "443".toList
        else []
      else start.forwardedPort }

theorem exec_applyProto_ok_iff {start out : Collected} :
    exec (applyProto start) environ = (.ok out, after) ↔
      Str.lower start.forwardedProto ∈ [[], "http".toList, "https".toList] ∧
      out = withProto start ∧
      after = if Str.lower start.forwardedProto = [] then environ
        else environ.set "wsgi.url_scheme".toList (Str.lower start.forwardedProto) := by
  rw [applyProto, withProto]
  by_cases none : start.forwardedProto = []
  · have same : withProto start = start := by
      obtain ⟨host, proto, port, forwarded, client⟩ := start
      obtain rfl : proto = [] := none
      by_cases noPort : port = []
      · rw [noPort]
        rfl
      · simp only [withProto, if_neg noPort]
        rfl
    rw [if_pos none, exec_pure]
    rw [withProto] at same
    rw [same, none]
    constructor
    · rintro ⟨⟩
      exact ⟨List.mem_cons_self, rfl, rfl⟩
    · rintro ⟨-, rfl, rfl⟩
      rfl
  · have nonempty : Str.lower start.forwardedProto ≠ [] := fun empty =>
      none (List.map_eq_nil_iff.mp empty)
    rw [if_neg none, if_neg nonempty, List.mem_cons]
    dsimp only
    by_cases supported :
        Str.lower start.forwardedProto ∈ ["http".toList, "https".toList]
    · rw [if_neg (not_not_intro supported), exec_modify_bind]
      by_cases noPort : start.forwardedPort = []
      · rw [if_pos noPort, if_pos noPort, exec_pure]
        by_cases isHttp : Str.lower start.forwardedProto = "http".toList
        · rw [if_pos isHttp, if_pos isHttp]
          constructor
          · rintro ⟨⟩
            exact ⟨.inr supported, rfl, rfl⟩
          · rintro ⟨-, rfl, rfl⟩
            rfl
        · have isHttps : Str.lower start.forwardedProto = "https".toList := by
            simpa only [List.mem_cons, isHttp, false_or, List.not_mem_nil, or_false] using supported
          rw [if_neg isHttp, if_neg isHttp, if_pos isHttps]
          constructor
          · rintro ⟨⟩
            exact ⟨.inr supported, rfl, rfl⟩
          · rintro ⟨-, rfl, rfl⟩
            rfl
      · rw [if_neg noPort, if_neg noPort, exec_pure]
        constructor
        · rintro ⟨⟩
          exact ⟨.inr supported, rfl, rfl⟩
        · rintro ⟨-, rfl, rfl⟩
          rfl
    · rw [if_pos supported]
      constructor
      · intro result
        rw [exec_bind, exec_throw] at result
        cases (Prod.mk.inj result).1
      · rintro ⟨isSupported, -⟩
        exact absurd (isSupported.resolve_left nonempty) supported

theorem forwardedText_absent (absent : readForwarded trusted environ = [])
    {field : Forwarded → Str} (default : field {} = []) :
    forwardedText trusted count environ field = none := by
  have empty : forwardedElement [] = .ok {} := rfl
  rw [forwardedText, absent, List.findSome?_eq_none_iff]
  intro element mem
  obtain rfl : element = [] := by simpa [Str.split] using sliceFrom_subset _ _ mem
  rw [pairText, empty]
  exact if_pos default

theorem gathered_eq : withProto (withForwarded count (collected trusted count environ)) =
    gathered trusted count environ := by
  rw [gathered, clientText, hostText, protoText, portText, withForwarded, collected]
  by_cases absent : readForwarded trusted environ = []
  · rw [if_pos absent, if_pos absent, if_pos absent, if_pos absent, withProto,
      forwardedText_absent absent rfl]
    rfl
  · rw [if_neg absent, if_neg absent, if_neg absent, if_neg absent, withProto]
    rfl

/-- The headers are read exactly if they are well formed. -/
theorem exec_gather_ok_iff (positive : 1 ≤ count) {out : Collected} :
    exec (gather trusted count) environ = (.ok out, after) ↔
      Readable trusted count environ ∧ out = gathered trusted count environ ∧
      after = kept trusted count environ := by
  have proto : Str.lower (withForwarded count (collected trusted count environ)).forwardedProto =
      protoText trusted count environ :=
    congrArg Collected.forwardedProto gathered_eq
  constructor
  · intro result
    obtain ⟨first, middle, collects, rest⟩ := exec_bind_ok result
    obtain ⟨second, later, applies, ends⟩ := exec_bind_ok rest
    obtain ⟨apart, rfl, rfl⟩ := (exec_collect_ok_iff positive).mp collects
    obtain ⟨forwarded, rfl, rfl⟩ := (exec_applyForwarded_ok_iff positive).mp applies
    obtain ⟨scheme, rfl, rfl⟩ := exec_applyProto_ok_iff.mp ends
    rw [proto] at scheme
    refine ⟨⟨apart, forwarded, scheme⟩, gathered_eq, ?_⟩
    rw [proto]
    rfl
  · rintro ⟨readable, rfl, rfl⟩
    have collects : exec (collect trusted count) environ = (.ok _, _) :=
      (exec_collect_ok_iff positive).mpr ⟨readable.toReadableApart, rfl, rfl⟩
    have applies : exec (applyForwarded count (collected trusted count environ))
        (keepHost trusted count (keepFor trusted count environ)) = (.ok _, _) :=
      (exec_applyForwarded_ok_iff positive).mpr ⟨readable.forwarded, rfl, rfl⟩
    rw [gather, exec_bind, collects]
    dsimp only
    rw [exec_bind, applies]
    dsimp only
    refine exec_applyProto_ok_iff.mpr ⟨proto ▸ readable.scheme, gathered_eq.symm, ?_⟩
    rw [proto]
    rfl

theorem raisesOnly_gather : RaisesOnly IsMalformed (gather trusted count) := by
  refine raisesOnly_bind raisesOnly_collect fun start => ?_
  exact raisesOnly_bind (raisesOnly_applyForwarded start) raisesOnly_applyProto

end Gathering

end Waitress.ProxyHeaders
