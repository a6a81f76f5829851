import SealedChat.Proofs.Dialogue

/-!
# The lines of a course

What a dialogue has put on its line in a course of events, and what it has taken from there. A course
that has come to its end cannot go on (`Runs.eq_of_append`).
-/

namespace SealedChat.Dialogue

/-! ## Said and heard -/

def Event.said? : Event → Option Bytes
  | .sent line (.ok _) => some line
  | _ => none

def Event.heard? : Event → Option Bytes
  | .received _ (.ok line) => some line
  | _ => none

/-- A line was not taken. -/
def Event.Lost : Event → Prop
  | .sent _ (.error _) => True
  | _ => False

/-- A line was not taken, or none came. -/
def Event.Failed : Event → Prop
  | .sent _ (.error _) | .received _ (.error _) => True
  | _ => False

theorem Event.Lost.failed {e : Event} (h : e.Lost) : e.Failed := by
  cases e with
  | sent line o =>
    cases o with
    | ok u => exact h.elim
    | error e => trivial
  | _ => exact h.elim

/-- The lines that were taken from the dialogue. -/
def said (es : List Event) : List Bytes := es.filterMap Event.said?

/-- The lines that came to the dialogue. -/
def heard (es : List Event) : List Bytes := es.filterMap Event.heard?

section

variable (es es' : List Event)

@[simp] theorem said_nil : said [] = [] := rfl

@[simp] theorem said_append : said (es ++ es') = said es ++ said es' := List.filterMap_append

@[simp] theorem said_sent_ok (line : Bytes) (u : Unit) :
    said (.sent line (.ok u) :: es) = line :: said es := rfl

@[simp] theorem said_sent_error (line : Bytes) (e : ChatError) :
    said (.sent line (.error e) :: es) = said es := rfl

@[simp] theorem said_received (limit : Option Duration) (o : Outcome Bytes) :
    said (.received limit o :: es) = said es := rfl

@[simp] theorem said_closed : said (.closed :: es) = said es := rfl

@[simp] theorem said_filled (n : Nat) (o : Option (Block n)) :
    said (.filled n o :: es) = said es := rfl

@[simp] theorem said_draws (answers : List Draw.Answer) : said (draws answers) = [] := by
  induction answers with
  | nil => rfl
  | cons a answers ih => exact ih

@[simp] theorem heard_nil : heard [] = [] := rfl

@[simp] theorem heard_append : heard (es ++ es') = heard es ++ heard es' := List.filterMap_append

@[simp] theorem heard_sent (line : Bytes) (o : Outcome Unit) :
    heard (.sent line o :: es) = heard es := rfl

@[simp] theorem heard_received_ok (limit : Option Duration) (line : Bytes) :
    heard (.received limit (.ok line) :: es) = line :: heard es := rfl

@[simp] theorem heard_received_error (limit : Option Duration) (e : ChatError) :
    heard (.received limit (.error e) :: es) = heard es := rfl

@[simp] theorem heard_closed : heard (.closed :: es) = heard es := rfl

@[simp] theorem heard_filled (n : Nat) (o : Option (Block n)) :
    heard (.filled n o :: es) = heard es := rfl

@[simp] theorem heard_draws (answers : List Draw.Answer) : heard (draws answers) = [] := by
  induction answers with
  | nil => rfl
  | cons a answers ih => exact ih

/-- Nothing went wrong on the line. -/
def Sound (es : List Event) : Prop := ∀ e ∈ es, ¬e.Failed

variable {es es'}

theorem sound_nil : Sound [] := List.forall_mem_nil _

theorem sound_append : Sound (es ++ es') ↔ Sound es ∧ Sound es' := List.forall_mem_append

theorem sound_cons {e : Event} : Sound (e :: es) ↔ ¬e.Failed ∧ Sound es := List.forall_mem_cons

theorem sound_draws (answers : List Draw.Answer) : Sound (draws answers) := by
  intro e he
  obtain ⟨a, -, rfl⟩ := List.mem_map.1 he
  exact id

end

/-! ## The answers settle what happens -/

variable {α : Type} {d : Dialogue α} {es es' : List Event} {a b : α}

/-- A course that is over does not go on. -/
theorem Runs.eq_of_append (h : d.Runs es a) (h' : d.Runs (es ++ es') b) : es' = [] ∧ a = b := by
  induction h with
  | done a =>
    obtain ⟨rfl, rfl⟩ := runs_done_iff.1 h'
    exact ⟨rfl, rfl⟩
  | send o _ ih =>
    obtain ⟨_, _, heq, h'⟩ := runs_send_iff.1 h'
    cases heq
    exact ih h'
  | receive o _ ih =>
    obtain ⟨_, _, heq, h'⟩ := runs_receive_iff.1 h'
    cases heq
    exact ih h'
  | close _ ih =>
    obtain ⟨_, heq, h'⟩ := runs_close_iff.1 h'
    cases heq
    exact ih h'
  | fill o _ ih =>
    obtain ⟨_, _, heq, h'⟩ := runs_fill_iff.1 h'
    cases heq
    exact ih h'

theorem Runs.unique (h : d.Runs es a) (h' : d.Runs es b) : a = b := by
  rw [← List.append_nil es] at h'
  exact (h.eq_of_append h').2

end SealedChat.Dialogue
