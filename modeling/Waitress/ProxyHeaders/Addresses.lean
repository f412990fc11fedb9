import Waitress.Decimal
import Waitress.ProxyHeaders.Rewriting
import Waitress.Utilities.Quoting

/-!
# The address of the client

The textual forms of addresses, and what becomes of them when they stand in the
selected element of `X-Forwarded-For`.  Only an IPv6 address that ends in an
IPv4 address and stands without brackets is misread: the dot keeps it from being
put into brackets, and so what stands behind its last colon is taken for a port.
-/

namespace Waitress

namespace Str

/-! ### Textual forms -/

/-- A decimal number below 256, without leading zeros. -/
def IsOctet (s : Str) : Prop := ∃ n < 256, s = natStr n

def IsIPv4 (s : Str) : Prop :=
  ∃ a b c d, IsOctet a ∧ IsOctet b ∧ IsOctet c ∧ IsOctet d ∧ s = join ['.'] [a, b, c, d]

/-- Sixteen bits, in up to four hexadecimal digits. -/
structure IsGroup (s : Str) : Prop where
  nonempty : s ≠ []
  short : s.length ≤ 4
  digits : ∀ c ∈ s, hexdig c.toNat = true

inductive Groups : Nat → List Str → Prop where
  | nil : Groups 0 []
  | group {n : Nat} {part : Str} {parts : List Str} :
      IsGroup part → Groups n parts → Groups (n + 1) (part :: parts)
  | embedded {part : Str} : IsIPv4 part → Groups 2 [part]

/-- Eight groups, some of which may be left out between two colons. -/
inductive IsIPv6 : Str → Prop where
  | full {parts : List Str} : Groups 8 parts → IsIPv6 (join [':'] parts)
  | compressed {n : Nat} {front back : List Str} :
      (∀ part ∈ front, IsGroup part) → Groups n back → front.length + n < 8 →
      IsIPv6 (join [':'] front ++ [':', ':'] ++ join [':'] back)

def IsAddressChar (c : Char) : Prop := hexdig c.toNat = true ∨ c = ':' ∨ c = '.'

theorem IsAddressChar.plain {c : Char} (isAddress : IsAddressChar c) :
    isSpace c = false ∧ c ≠ '"' ∧ c ≠ '[' ∧ c ≠ ']' := by
  rcases isAddress with digit | rfl | rfl
  · have codes : (48 ≤ c.toNat ∧ c.toNat ≤ 57 ∨ 97 ≤ c.toNat ∧ c.toNat ≤ 102) ∨
        65 ≤ c.toNat ∧ c.toNat ≤ 70 := by
      simpa only [hexdig, Bool.or_eq_true, Bool.and_eq_true, decide_eq_true_eq] using digit
    refine ⟨?_, ?_, ?_, ?_⟩
    · simp only [isSpace, Bool.or_eq_false_iff, Bool.and_eq_false_iff, decide_eq_false_iff_not]
      omega
    · rintro rfl
      exact absurd codes (by decide)
    · rintro rfl
      exact absurd codes (by decide)
    · rintro rfl
      exact absurd codes (by decide)
  · decide
  · decide

theorem mem_join {separator : Str} {parts : List Str} {c : Char} (mem : c ∈ join separator parts) :
    c ∈ separator ∨ ∃ part ∈ parts, c ∈ part := by
  induction parts with
  | nil => cases mem
  | cons part parts inductionHypothesis =>
      cases parts with
      | nil => exact .inr ⟨part, List.mem_cons_self, mem⟩
      | cons next others =>
          rw [join, List.mem_append, List.mem_append] at mem
          · rcases mem with (inside | between) | rest
            · exact .inr ⟨part, List.mem_cons_self, inside⟩
            · exact .inl between
            · rcases inductionHypothesis rest with between | ⟨other, among, inside⟩
              · exact .inl between
              · exact .inr ⟨other, List.mem_cons_of_mem part among, inside⟩
          · exact fun none => by cases none

theorem hexdig_of_isDecimalChar {c : Char} (digit : isDecimalChar c = true) :
    hexdig c.toNat = true := by
  rw [isDecimalChar, Bool.and_eq_true, decide_eq_true_eq, decide_eq_true_eq] at digit
  have low : 48 ≤ c.toNat := digit.1
  have high : c.toNat ≤ 57 := digit.2
  simp only [hexdig, Bool.or_eq_true, Bool.and_eq_true, decide_eq_true_eq]
  exact .inl (.inl ⟨low, high⟩)

theorem ne_of_hexdig {c : Char} (digit : hexdig c.toNat = true) : c ≠ ':' ∧ c ≠ '.' := by
  constructor
  · rintro rfl
    exact absurd digit (by decide)
  · rintro rfl
    exact absurd digit (by decide)

theorem IsOctet.digits {s : Str} (octet : IsOctet s) : ∀ c ∈ s, hexdig c.toNat = true := by
  obtain ⟨n, -, rfl⟩ := octet
  intro c mem
  exact hexdig_of_isDecimalChar (List.all_eq_true.mp (natStr_isDecimal n).2 c mem)

theorem IsIPv4.chars {s : Str} (address : IsIPv4 s) :
    '.' ∈ s ∧ ':' ∉ s ∧ ∀ c ∈ s, IsAddressChar c := by
  obtain ⟨a, b, c, d, first, second, third, fourth, rfl⟩ := address
  have each : ∀ x ∈ join ['.'] [a, b, c, d], x = '.' ∨ hexdig x.toNat = true := by
    intro x mem
    rcases mem_join mem with dot | ⟨part, among, inside⟩
    · exact .inl (List.mem_singleton.mp dot)
    · simp only [List.mem_cons, List.not_mem_nil, or_false] at among
      rcases among with rfl | rfl | rfl | rfl
      · exact .inr (first.digits x inside)
      · exact .inr (second.digits x inside)
      · exact .inr (third.digits x inside)
      · exact .inr (fourth.digits x inside)
  refine ⟨by simp [join], fun colon => ?_, fun x mem => ?_⟩
  · rcases each ':' colon with same | digit
    · cases same
    · exact (ne_of_hexdig digit).1 rfl
  · rcases each x mem with rfl | digit
    · exact .inr (.inr rfl)
    · exact .inl digit

theorem Groups.chars {n : Nat} {parts : List Str} (groups : Groups n parts) :
    ∀ part ∈ parts, ∀ c ∈ part, IsAddressChar c := by
  induction groups with
  | nil => simp
  | group isGroup _ inductionHypothesis =>
      exact List.forall_mem_cons.mpr
        ⟨fun c mem => .inl (isGroup.digits c mem), inductionHypothesis⟩
  | embedded address =>
      intro part mem
      rw [List.mem_singleton.mp mem]
      exact address.chars.2.2

theorem isAddressChar_of_mem_join {parts : List Str}
    (each : ∀ part ∈ parts, ∀ c ∈ part, IsAddressChar c) {c : Char}
    (mem : c ∈ join [':'] parts) : IsAddressChar c := by
  rcases mem_join mem with colon | ⟨part, among, inside⟩
  · exact .inr (.inl (List.mem_singleton.mp colon))
  · exact each part among c inside

theorem IsIPv6.chars {s : Str} (address : IsIPv6 s) : ∀ c ∈ s, IsAddressChar c := by
  intro c mem
  cases address with
  | full groups => exact isAddressChar_of_mem_join groups.chars mem
  | compressed front back _ =>
      have frontChars : ∀ part ∈ _, ∀ c ∈ part, IsAddressChar c := fun part among c inside =>
        .inl ((front part among).digits c inside)
      rw [List.mem_append, List.mem_append] at mem
      rcases mem with (before | colons) | behind
      · exact isAddressChar_of_mem_join frontChars before
      · exact .inr (.inl (by simpa using colons))
      · exact isAddressChar_of_mem_join back.chars behind

theorem IsGroup.noSeparator {s : Str} (isGroup : IsGroup s) : ':' ∉ s ∧ '.' ∉ s :=
  ⟨fun colon => (ne_of_hexdig (isGroup.digits ':' colon)).1 rfl,
    fun dot => (ne_of_hexdig (isGroup.digits '.' dot)).2 rfl⟩

theorem IsIPv6.first {s : Str} (address : IsIPv6 s) :
    ∃ front rest, s = front ++ ':' :: rest ∧ ':' ∉ front ∧ '.' ∉ front := by
  cases address with
  | full groups =>
      cases groups with
      | @group _ part parts isGroup more =>
          cases parts with
          | nil => cases more
          | cons next others =>
              exact ⟨part, join [':'] (next :: others), by simp [join], isGroup.noSeparator⟩
  | @compressed _ front back isFront _ _ =>
      cases front with
      | nil => exact ⟨[], ':' :: join [':'] back, by simp [join], by simp⟩
      | cons part parts =>
          have isGroup := isFront part List.mem_cons_self
          cases parts with
          | nil => exact ⟨part, ':' :: join [':'] back, by simp [join], isGroup.noSeparator⟩
          | cons next others =>
              refine ⟨part, join [':'] (next :: others) ++ [':', ':'] ++ join [':'] back, ?_,
                isGroup.noSeparator⟩
              simp [join]

end Str

open Str

namespace ProxyHeaders

open Raising

/-- The text of a hop, with the address and the port that it carries. -/
inductive HopForm : Str → Str → Option Str → Prop where
  | ipv4 {address : Str} : IsIPv4 address → HopForm address address none
  | ipv4Port {address port : Str} :
      IsIPv4 address → IsDecimal port → HopForm (address ++ ':' :: port) address (some port)
  | ipv6 {address : Str} : IsIPv6 address → HopForm address address none
  | bracketed {address : Str} : IsIPv6 address → HopForm ('[' :: (address ++ [']'])) address none

def StandsFor (element text : Str) : Prop :=
  Str.strip element = text ∨ Quoting text (Str.strip element)

/-- The address is delivered, and the port exactly if there is one. -/
structure Delivered (environ after : Environ) (address : Str) (port : Option Str) : Prop where
  addr : after.get? "REMOTE_ADDR".toList = some address
  host : after.get? "REMOTE_HOST".toList = some address
  port : after.get? "REMOTE_PORT".toList = port.or (environ.get? "REMOTE_PORT".toList)

/-! ### The two heuristics -/

section Hops

variable {text address element : Str} {port : Option Str}

theorem plain_ends {s : Str} (chars : ∀ c ∈ s, IsAddressChar c) :
    s.head? ≠ some '"' ∧ s.getLast? ≠ some '"' ∧ s.head? ≠ some '[' ∧ Str.strip s = s := by
  have head : ∀ c ∈ s.head?, IsAddressChar c := fun c first => chars c (List.mem_of_head? first)
  have last : ∀ c ∈ s.getLast?, IsAddressChar c := fun c ends =>
    chars c (List.mem_of_getLast? ends)
  refine ⟨fun first => (head _ first).plain.2.1 rfl, fun ends => (last _ ends).plain.2.1 rfl,
    fun first => (head _ first).plain.2.2.1 rfl, ?_⟩
  by_cases empty : s = []
  · rw [empty]
    rfl
  · have stripped : Str.strip ([] ++ s ++ []) = s := strip_surrounded (by simp) (by simp)
      (fun c first => (head c first).plain.1) (fun c ends => (last c ends).plain.1) empty
    simpa using stripped

def hopClient (text : Str) : Str :=
  if '.' ∉ text ∧ ':' ∈ text ∧ text.getLast? ≠ some ']' then '[' :: (text ++ [']']) else text

theorem forwardHop_eq (read : undquote (Str.strip element) = .ok text) :
    forwardHop element = .ok (hopClient text) := by
  rw [forwardHop, unquoted_eq_ok_iff.mpr read, hopClient]
  dsimp only
  split
  · rfl
  · rfl

theorem isText_of_isAddressChar {c : Char} (isAddress : IsAddressChar c) : IsText c := by
  rcases isAddress with digit | rfl | rfl
  · simp only [hexdig, Bool.or_eq_true, Bool.and_eq_true, decide_eq_true_eq] at digit
    simp only [IsText, quotable, vchar, obsText, Bool.or_eq_true, Bool.and_eq_true,
      decide_eq_true_eq]
    omega
  · decide
  · decide

theorem IsDecimal.chars {s : Str} (decimal : IsDecimal s) : ∀ c ∈ s, IsAddressChar c :=
  fun c mem => .inl (hexdig_of_isDecimalChar (List.all_eq_true.mp decimal.2 c mem))

theorem HopForm.chars (form : HopForm text address port) :
    (∀ c ∈ text, IsAddressChar c) ∨
      ∃ inner, text = '[' :: (inner ++ [']']) ∧ ∀ c ∈ inner, IsAddressChar c := by
  cases form with
  | ipv4 address => exact .inl address.chars.2.2
  | ipv4Port address decimal =>
      refine .inl fun c mem => ?_
      rcases List.mem_append.mp mem with before | behind
      · exact address.chars.2.2 c before
      · rcases List.mem_cons.mp behind with rfl | digit
        · exact .inr (.inl rfl)
        · exact IsDecimal.chars decimal c digit
  | ipv6 address => exact .inl address.chars
  | bracketed address => exact .inr ⟨_, rfl, address.chars⟩

theorem undquote_hop (form : HopForm text address port) (stands : StandsFor element text) :
    undquote (Str.strip element) = .ok text := by
  have ends : text.head? ≠ some '"' ∧ text.getLast? ≠ some '"' ∧ ∀ c ∈ text, IsText c := by
    rcases form.chars with plain | ⟨inner, rfl, plain⟩
    · have ends := plain_ends plain
      exact ⟨ends.1, ends.2.1, fun c mem => isText_of_isAddressChar (plain c mem)⟩
    · refine ⟨by simp, ?_, ?_⟩
      · rw [← List.cons_append, List.getLast?_append]
        simp
      · intro c mem
        rw [List.mem_cons, List.mem_append, List.mem_singleton] at mem
        rcases mem with rfl | inside | rfl
        · decide
        · exact isText_of_isAddressChar (plain c inside)
        · decide
  rcases stands with bare | quoting
  · rw [bare]
    exact undquote_unquoted ends.1 ends.2.1
  · exact undquote_quoting quoting ends.2.2

theorem splitClient_bracketed {inner : Str} :
    splitClient ('[' :: (inner ++ [']'])) = ('[' :: (inner ++ [']']), none) ∧
      withoutBrackets ('[' :: (inner ++ [']'])) = inner := by
  have last : ('[' :: (inner ++ [']'])).getLast? = some ']' := by
    rw [← List.cons_append, List.getLast?_append]
    rfl
  have noPort : hasPort ('[' :: (inner ++ [']'])) = false := by
    refine decide_eq_false fun both => both.2 last
  have stripped : Str.strip ([] ++ '[' :: (inner ++ [']']) ++ []) = '[' :: (inner ++ [']']) := by
    refine strip_surrounded (by simp) (by simp) (fun c first => ?_) (fun c ends => ?_) (by simp)
    · cases first
      decide
    · rw [last] at ends
      cases ends
      decide
  rw [List.append_nil, List.nil_append] at stripped
  refine ⟨?_, ?_⟩
  · rw [splitClient, noPort, if_neg Bool.false_ne_true, stripped]
  · rw [withoutBrackets, if_pos ⟨rfl, last⟩]
    simp

/-- What becomes of an address without a colon. -/
theorem splitClient_plain (chars : ∀ c ∈ address, IsAddressChar c) (noColon : ':' ∉ address) :
    splitClient address = (address, none) ∧ withoutBrackets address = address := by
  obtain ⟨-, -, noBracket, stripped⟩ := plain_ends chars
  have noPort : hasPort address = false := decide_eq_false fun both => noColon both.1
  refine ⟨?_, ?_⟩
  · rw [splitClient, noPort, if_neg Bool.false_ne_true, stripped]
  · rw [withoutBrackets, if_neg fun brackets => noBracket brackets.1]

/-- The two heuristics together read a hop that is no bare IPv6 address with a dot. -/
theorem splitClient_hopClient (form : HopForm text address port)
    (fine : ¬(IsIPv6 text ∧ '.' ∈ text)) :
    withoutBrackets (splitClient (hopClient text)).1 = address ∧
      (splitClient (hopClient text)).2 = port ∧ (splitClient (hopClient text)).1 ≠ [] := by
  cases form with
  | ipv4 isIPv4 =>
      obtain ⟨dot, noColon, chars⟩ := isIPv4.chars
      obtain ⟨split, plain⟩ := splitClient_plain chars noColon
      rw [hopClient, if_neg fun bare => bare.1 dot, split]
      exact ⟨plain, rfl, List.ne_nil_of_mem dot⟩
  | @ipv4Port _ digits isIPv4 decimal =>
      obtain ⟨dot, noColon, chars⟩ := isIPv4.chars
      have portChars := IsDecimal.chars decimal
      have noPortColon : ':' ∉ digits := fun colon =>
        (ne_of_hexdig (hexdig_of_isDecimalChar
          (List.all_eq_true.mp decimal.2 ':' colon))).1 rfl
      have withPort : hasPort (address ++ ':' :: digits) = true := by
        refine decide_eq_true ⟨by simp, ?_⟩
        rw [List.getLast?_append, List.getLast?_cons]
        cases last : digits.getLast? with
        | none => exact absurd (List.getLast?_eq_none_iff.mp last) decimal.1
        | some c =>
            have isAddress := portChars c (List.mem_of_getLast? last)
            intro same
            exact isAddress.plain.2.2.2 (Option.some.inj same)
      obtain ⟨-, -, noBracket, stripped⟩ := plain_ends chars
      obtain ⟨-, -, -, portStripped⟩ := plain_ends portChars
      rw [hopClient, if_neg fun bare => bare.1 (List.mem_append_left _ dot), splitClient,
        if_pos withPort, rsplit_append noPortColon, stripped, portStripped, withoutBrackets,
        if_neg fun brackets => noBracket brackets.1]
      exact ⟨rfl, rfl, List.ne_nil_of_mem dot⟩
  | ipv6 isIPv6 =>
      have noDot : '.' ∉ text := fun dot => fine ⟨isIPv6, dot⟩
      obtain ⟨front, rest, split, -, -⟩ := isIPv6.first
      have colon : ':' ∈ text := by
        rw [split]
        simp
      have noBracket : text.getLast? ≠ some ']' := fun last =>
        (isIPv6.chars ']' (List.mem_of_getLast? last)).plain.2.2.2 rfl
      obtain ⟨split, inner⟩ := @splitClient_bracketed text
      rw [hopClient, if_pos ⟨noDot, colon, noBracket⟩, split]
      exact ⟨inner, rfl, List.cons_ne_nil _ _⟩
  | bracketed isIPv6 =>
      have last : ('[' :: (address ++ [']'])).getLast? = some ']' := by
        rw [← List.cons_append, List.getLast?_append]
        rfl
      obtain ⟨split, inner⟩ := @splitClient_bracketed address
      rw [hopClient, if_neg fun bare => bare.2.2 last, split]
      exact ⟨inner, rfl, List.cons_ne_nil _ _⟩

theorem length_withoutBrackets_le (addr : Str) : (withoutBrackets addr).length ≤ addr.length := by
  rw [withoutBrackets]
  split
  · rw [List.length_dropLast, List.length_tail]
    omega
  · exact Nat.le_refl _

/-- The part behind the last colon of a bare address with a dot gets lost. -/
theorem withoutBrackets_mixed (isIPv6 : IsIPv6 text) (dot : '.' ∈ text) :
    withoutBrackets (splitClient (hopClient text)).1 ≠ text := by
  obtain ⟨front, rest, split, -, -⟩ := isIPv6.first
  have colon : ':' ∈ text := by
    rw [split]
    simp
  have noBracket : text.getLast? ≠ some ']' := fun last =>
    (isIPv6.chars ']' (List.mem_of_getLast? last)).plain.2.2.2 rfl
  obtain ⟨before, behind, whole, absent⟩ := exists_last_separator colon
  intro same
  have withPort : hasPort text = true := decide_eq_true ⟨colon, noBracket⟩
  have lengths := congrArg List.length same
  rw [hopClient, if_neg fun bare => bare.1 dot, splitClient, if_pos withPort, whole,
    rsplit_append absent] at lengths
  have shorter := length_withoutBrackets_le (Str.strip before)
  have stripped := length_strip_le before
  rw [lengths, List.length_append, List.length_cons] at shorter
  omega

/-- Only the forms of an IPv6 address start like one. -/
theorem HopForm.eq_of_isIPv6 (form : HopForm text address port) (isIPv6 : IsIPv6 text) :
    text = address := by
  cases form with
  | ipv4 isIPv4 => rfl
  | ipv4Port isIPv4 decimal =>
      obtain ⟨front, rest, split, noColon, noDot⟩ := isIPv6.first
      obtain ⟨dot, noAddressColon, -⟩ := isIPv4.chars
      have parts := congrArg (Str.split ':') split
      rw [split_append noAddressColon, split_append noColon] at parts
      exact absurd ((List.cons.inj parts).1 ▸ dot) noDot
  | ipv6 _ => rfl
  | bracketed _ =>
      exact absurd rfl (isIPv6.chars '[' List.mem_cons_self).plain.2.2.1

end Hops

/-! ### Delivery -/

section Delivery

variable {trusted : List Str} {count : Int} {environ : Environ} {value element text address : Str}
  {port : Option Str}

theorem clientText_eq
    (given : trustedValue trusted "x-forwarded-for" "HTTP_X_FORWARDED_FOR" environ = some value)
    (noForwarded : readForwarded trusted environ = [])
    (selected : (trustedElements count value).head? = some element)
    (read : undquote (Str.strip element) = .ok text) :
    clientText trusted count environ = some (hopClient text) := by
  rw [clientText, forwardedText_absent noForwarded rfl, oldestText, given, Option.bind_some,
    selected, Option.bind_some, forwardHop_eq read]
  rfl

/-- The address of the selected hop is delivered exactly if every trusted header is well formed and
the hop is no bare IPv6 address that ends in an IPv4 address. -/
theorem delivered_iff (positive : 1 ≤ count)
    (scheme : environ.contains "wsgi.url_scheme".toList = true)
    (given : trustedValue trusted "x-forwarded-for" "HTTP_X_FORWARDED_FOR" environ = some value)
    (noForwarded : readForwarded trusted environ = [])
    (selected : (trustedElements count value).head? = some element)
    (stands : StandsFor element text) (form : HopForm text address port) :
    (∃ untrusted after, exec (parseProxyHeaders trusted count) environ = (.ok untrusted, after) ∧
      Delivered environ after address port) ↔
      Readable trusted count environ ∧ ¬(IsIPv6 text ∧ '.' ∈ text) := by
  have client := clientText_eq given noForwarded selected (undquote_hop form stands)
  obtain ⟨schemeValue, hasScheme⟩ := Option.isSome_iff_exists.mp scheme
  constructor
  · rintro ⟨untrusted, after, returned, delivered⟩
    obtain ⟨readable, -, -, -, rfl⟩ := (exec_parseProxyHeaders_ok_iff positive).mp returned
    refine ⟨readable, fun ⟨isIPv6, dot⟩ => ?_⟩
    have bare : hopClient text = text := if_neg fun bare => bare.1 dot
    have nonempty : hopClient text ≠ [] := by
      rw [bare]
      exact List.ne_nil_of_mem dot
    have addr := delivered.addr
    rw [rewritten, client, Option.getD_some, if_neg nonempty, (get?_setClient_addr _ _).1,
      Option.some.injEq] at addr
    exact withoutBrackets_mixed isIPv6 dot (addr.trans (form.eq_of_isIPv6 isIPv6).symm)
  · rintro ⟨readable, fine⟩
    obtain ⟨addr, ports, hasAddr⟩ := splitClient_hopClient form fine
    have nonempty : hopClient text ≠ [] := by
      intro empty
      rw [empty] at hasAddr
      exact hasAddr rfl
    have hasAddress : ¬NoAddress ((clientText trusted count environ).getD []) := by
      rw [client, Option.getD_some]
      exact fun noAddress => hasAddr ((splitClient_eq_nil_iff nonempty).mpr noAddress)
    refine ⟨_, _, (exec_parseProxyHeaders_ok_iff positive).mpr
      ⟨readable, fun _ => get?_kept_scheme hasScheme, hasAddress, rfl, rfl⟩, ?_⟩
    rw [rewritten, client, Option.getD_some, if_neg nonempty]
    obtain ⟨remoteAddr, remoteHost⟩ := get?_setClient_addr (hopClient text)
      (numbered trusted count environ)
    refine ⟨by rw [remoteAddr, addr], by rw [remoteHost, addr], ?_⟩
    rw [get?_setClient_port, ports, get?_numbered_other (by decide)]

end Delivery

def hopEnviron (hops : String) : Environ :=
  ⟨[("wsgi.url_scheme".toList, "http".toList), ("REMOTE_PORT".toList, "5000".toList),
    ("HTTP_X_FORWARDED_FOR".toList, hops.toList)]⟩

theorem isIPv4_documentation : IsIPv4 "192.0.2.1".toList := by
  have octet (n : Nat) (small : n < 256) : IsOctet (natStr n) := ⟨n, small, rfl⟩
  exact ⟨natStr 192, natStr 0, natStr 2, natStr 1, octet 192 (by decide), octet 0 (by decide),
    octet 2 (by decide), octet 1 (by decide), by decide +kernel⟩

theorem delivered_ipv4Port :
    ∃ untrusted after, exec (parseProxyHeaders ["x-forwarded-for".toList] 1)
        (hopEnviron "10.0.0.1, 192.0.2.1:80") = (.ok untrusted, after) ∧
      Delivered (hopEnviron "10.0.0.1, 192.0.2.1:80") after "192.0.2.1".toList
        (some "80".toList) := by
  have returns : (exec (parseProxyHeaders ["x-forwarded-for".toList] 1)
      (hopEnviron "10.0.0.1, 192.0.2.1:80")).1 =
      .ok (proxyHeaders.erase "X_FORWARDED_FOR".toList) := by decide +kernel
  rcases run : exec (parseProxyHeaders ["x-forwarded-for".toList] 1)
    (hopEnviron "10.0.0.1, 192.0.2.1:80") with ⟨result, after⟩
  rw [run] at returns
  obtain rfl := returns
  obtain ⟨readable, -⟩ := (exec_parseProxyHeaders_ok_iff (by decide)).mp run
  have form : HopForm "192.0.2.1:80".toList "192.0.2.1".toList (some "80".toList) :=
    .ipv4Port isIPv4_documentation (by decide)
  have fine : ¬(IsIPv6 "192.0.2.1:80".toList ∧ '.' ∈ "192.0.2.1:80".toList) := fun mixed =>
    absurd (form.eq_of_isIPv6 mixed.1) (by decide)
  rw [← run]
  exact (delivered_iff (by decide) (by decide +kernel)
    (show _ = some "10.0.0.1, 192.0.2.1:80".toList by decide +kernel) (by decide +kernel)
    (show _ = some " 192.0.2.1:80".toList by decide +kernel) (.inl (by decide +kernel)) form).mpr
      ⟨readable, fine⟩

/-- An IPv6 address that ends in an IPv4 address loses its end to the port. -/
theorem mixedAddress_misread :
    HopForm "::ffff:192.0.2.1".toList "::ffff:192.0.2.1".toList none ∧
    ¬∃ untrusted after, exec (parseProxyHeaders ["x-forwarded-for".toList] 1)
        (hopEnviron "::ffff:192.0.2.1") = (.ok untrusted, after) ∧
      Delivered (hopEnviron "::ffff:192.0.2.1") after "::ffff:192.0.2.1".toList none := by
  have isGroup : IsGroup "ffff".toList := ⟨by decide, by decide, by simp [hexdig]⟩
  have back : Groups 3 ["ffff".toList, "192.0.2.1".toList] :=
    .group isGroup (.embedded isIPv4_documentation)
  have front : ∀ part ∈ ([] : List Str), IsGroup part := by simp
  refine ⟨.ipv6 (.compressed front back (by decide)), ?_⟩
  rintro ⟨untrusted, after, run, delivered⟩
  have actual : (exec (parseProxyHeaders ["x-forwarded-for".toList] 1)
      (hopEnviron "::ffff:192.0.2.1")).2.get? "REMOTE_ADDR".toList = some "::ffff".toList := by
    decide +kernel
  rw [run, delivered.addr] at actual
  exact absurd actual (by decide)

end ProxyHeaders

end Waitress
