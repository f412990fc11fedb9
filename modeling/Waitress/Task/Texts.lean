import Waitress.Decimal
import Waitress.Task.Header

/-!
# The text of a header block

Which characters the block is made of.  What the program adds is plain ASCII; the
rest comes from the application and from the configuration.
-/

namespace Waitress

open Raising

namespace Str

/-- The printable characters of ASCII. -/
def IsPlain (c : Char) : Prop := 32 ≤ c.toNat ∧ c.toNat < 127

instance : DecidablePred IsPlain := fun c =>
  inferInstanceAs (Decidable (32 ≤ c.toNat ∧ c.toNat < 127))

def Of (allowed : Char → Prop) (text : Str) : Prop := ∀ c ∈ text, allowed c

instance (allowed : Char → Prop) [DecidablePred allowed] (text : Str) :
    Decidable (Of allowed text) := List.decidableBAll allowed text

variable {allowed : Char → Prop}

theorem of_append {first second : Str} :
    Of allowed (first ++ second) ↔ Of allowed first ∧ Of allowed second :=
  List.forall_mem_append

theorem Of.mono {other : Char → Prop} (implies : ∀ c, allowed c → other c) {text : Str}
    (of : Of allowed text) : Of other text := fun c mem => implies c (of c mem)

theorem of_join {separator : Str} (between : Of allowed separator) {parts : List Str}
    (each : ∀ part ∈ parts, Of allowed part) : Of allowed (join separator parts) := by
  induction parts with
  | nil => exact fun c mem => absurd mem List.not_mem_nil
  | cons part rest inductionHypothesis =>
      rw [List.forall_mem_cons] at each
      cases rest with
      | nil => exact each.1
      | cons next others =>
          exact of_append.mpr ⟨of_append.mpr ⟨each.1, between⟩, inductionHypothesis each.2⟩

end Str

theorem natStr_plain (n : Nat) : Str.Of Str.IsPlain (natStr n) := by
  intro c mem
  have digit := List.all_eq_true.mp (natStr_isDecimal n).2 c mem
  rw [isDecimalChar, Bool.and_eq_true, decide_eq_true_eq, decide_eq_true_eq] at digit
  have low : 48 ≤ c.toNat := digit.1
  have high : c.toNat ≤ 57 := digit.2
  exact ⟨by omega, by omega⟩

theorem intStr_plain (n : Int) : Str.Of Str.IsPlain (intStr n) := by
  cases n with
  | ofNat n => exact natStr_plain n
  | negSucc n => exact List.forall_mem_cons.mpr ⟨by decide, natStr_plain (n + 1)⟩

theorem padded_plain (width : Nat) {fill : Char} (plain : Str.IsPlain fill) (n : Nat) :
    Str.Of Str.IsPlain (padded width fill n) := by
  refine Str.of_append.mpr ⟨fun c mem => ?_, natStr_plain n⟩
  rwa [List.eq_of_mem_replicate mem]

theorem getD_plain {names : List String} (each : ∀ name ∈ names, Str.Of Str.IsPlain name.toList)
    (index : Nat) : Str.Of Str.IsPlain (names.getD index "").toList := by
  rw [List.getD_eq_getElem?_getD]
  cases found : names[index]? with
  | none => exact fun c mem => absurd mem List.not_mem_nil
  | some name => exact each name (List.mem_of_getElem? found)

theorem buildHttpDate_plain (time : GmTime) : Str.Of Str.IsPlain (buildHttpDate time) := by
  have weekday := getD_plain (show ∀ name ∈ weekdayname, Str.Of Str.IsPlain name.toList by decide)
    time.wd
  have month := getD_plain (show ∀ name ∈ monthname, Str.Of Str.IsPlain name.toList by decide)
    time.month
  have two : ∀ n, Str.Of Str.IsPlain (padded 2 '0' n) := padded_plain 2 (by decide)
  have four := padded_plain 4 (show Str.IsPlain ' ' by decide) time.year
  have comma : Str.Of Str.IsPlain ", ".toList := by decide
  have blank : Str.Of Str.IsPlain " ".toList := by decide
  have colon : Str.Of Str.IsPlain ":".toList := by decide
  have zone : Str.Of Str.IsPlain " GMT".toList := by decide
  simp only [buildHttpDate, Str.of_append]
  exact ⟨⟨⟨⟨⟨⟨⟨⟨⟨⟨⟨⟨⟨weekday, comma⟩, two _⟩, blank⟩, month⟩, blank⟩, four⟩, blank⟩, two _⟩, colon⟩,
    two _⟩, colon⟩, two _⟩, zone⟩

namespace Task

variable {allowed : Char → Prop}

/-- The names and the values of the headers are made of allowed characters. -/
def Texts (allowed : Char → Prop) (headers : List (Str × Str)) : Prop :=
  ∀ header ∈ headers, Str.Of allowed header.1 ∧ Str.Of allowed header.2

theorem texts_append {first second : List (Str × Str)} :
    Texts allowed (first ++ second) ↔ Texts allowed first ∧ Texts allowed second :=
  List.forall_mem_append

section Plain

variable (plain : ∀ c, Str.IsPlain c → allowed c)

include plain

theorem Texts.addPlain {task : Task} (texts : Texts allowed task.responseHeaders)
    {name value : Str} (plainName : Str.Of Str.IsPlain name) (valueOf : Str.Of allowed value) :
    Texts allowed (task.addHeader name value).responseHeaders :=
  texts_append.mpr ⟨texts, List.forall_mem_singleton.mpr ⟨plainName.mono plain, valueOf⟩⟩

theorem Texts.setCloseOnFinish {task : Task} (texts : Texts allowed task.responseHeaders) :
    Texts allowed task.setCloseOnFinish.responseHeaders := by
  have close : Str.Of Str.IsPlain "close".toList := by decide
  rw [Task.setCloseOnFinish]
  dsimp only
  split
  · exact texts.addPlain plain (by decide) (close.mono plain)
  · exact texts

theorem Texts.addContentLength {task : Task} (texts : Texts allowed task.responseHeaders) :
    Texts allowed task.addContentLength.responseHeaders := by
  rw [Task.addContentLength]
  split
  · cases task.contentLength with
    | none => exact texts
    | some length => exact texts.addPlain plain (by decide) ((intStr_plain length).mono plain)
  · exact texts

theorem Texts.decideChunked {task : Task} (texts : Texts allowed task.responseHeaders) :
    Texts allowed task.decideChunked.responseHeaders := by
  have chunked : Str.Of Str.IsPlain "chunked".toList := by decide
  have rest : ∀ other : Task, Texts allowed other.responseHeaders →
      Texts allowed
        (if other.closeOnFinish = false then other.setCloseOnFinish else other).responseHeaders := by
    intro other others
    split
    · exact others.setCloseOnFinish plain
    · exact others
  unfold Task.decideChunked
  dsimp only
  split
  · apply rest
    exact texts.addPlain plain (by decide) (chunked.mono plain)
  · exact rest task texts

theorem Texts.decideConnection {task : Task} (texts : Texts allowed task.responseHeaders)
    (connection : Str) (announced : Bool) :
    Texts allowed (task.decideConnection connection announced).responseHeaders := by
  have keepAlive : Str.Of Str.IsPlain "Keep-Alive".toList := by decide
  have closed := texts.setCloseOnFinish plain
  unfold Task.decideConnection
  dsimp only
  split
  · split
    · split
      · exact closed
      · exact texts.addPlain plain (by decide) (keepAlive.mono plain)
    · exact closed
  · split
    · split
      · exact closed.decideChunked plain
      · exact texts.decideChunked plain
    · split
      · exact closed
      · exact texts

theorem Texts.addServer {task : Task} (texts : Texts allowed task.responseHeaders)
    {ident : Option Str} (named : ∀ name ∈ ident, Str.Of allowed name)
    (serverHeader : Option Str) :
    Texts allowed (task.addServer ident serverHeader).responseHeaders := by
  have waitress : Str.Of Str.IsPlain "waitress".toList := by decide
  have value : Str.Of allowed (ident.getD []) := by
    cases ident with
    | none => exact fun c mem => absurd mem List.not_mem_nil
    | some name => exact named name rfl
  unfold Task.addServer
  split
  · split
    · exact texts
    · exact texts.addPlain plain (by decide) value
  · apply texts.addPlain plain (by decide)
    split
    · exact waitress.mono plain
    · exact value

theorem Texts.addDate {task : Task} (texts : Texts allowed task.responseHeaders) {date : Str}
    (dated : Str.Of allowed date) (dateHeader : Option Str) :
    Texts allowed (task.addDate date dateHeader).responseHeaders := by
  unfold Task.addDate
  split
  · exact texts.addPlain plain (by decide) dated
  · exact texts

/-- The block consists of what the application gave, of the ident and of plain text. -/
theorem Texts.headerBlock {context : TaskContext} {task : Task}
    (texts : Texts allowed task.normalizeHeaders.responseHeaders)
    (named : ∀ name ∈ context.adj.ident, Str.Of allowed name)
    (dated : Str.Of allowed context.date) :
    Texts allowed (task.headerBlock context).responseHeaders := by
  unfold Task.headerBlock
  apply Texts.addDate plain _ dated
  apply Texts.addServer plain _ named
  apply Texts.decideConnection plain
  exact texts.addContentLength plain

end Plain

end Task

end Waitress
