import Mathlib.Data.List.Induction
import SealedChat.Service.Dispatcher

/-!
# The handler registered last

Handlers are registered one after the other, all with the same table, whichever clone of the
dispatcher is asked to do it. Of the handlers of a command the last one answers.
-/

namespace SealedChat.Dispatcher

variable {σ : Type}

/-- A command and a handler for it. -/
abbrev Registration (σ : Type) := String × Handler σ

/-- The dispatcher after registrations, the first first. -/
def ofRegistrations (regs : List (Registration σ)) : Dispatcher σ :=
  regs.foldl (fun d r => d.register r.1 r.2) empty

/-- The handler that was registered last for a command. -/
def latest? (regs : List (Registration σ)) (command : String) : Option (Handler σ) :=
  ((regs.filter fun r => r.1 = command).getLast?).map Prod.snd

theorem ofRegistrations_snoc (regs : List (Registration σ)) (r : Registration σ) :
    ofRegistrations (regs ++ [r]) = (ofRegistrations regs).register r.1 r.2 := by
  simp [ofRegistrations]

theorem handler?_register (d : Dispatcher σ) (command command' : String) (handler : Handler σ) :
    (d.register command handler).handler? command' =
      if command = command' then some handler else d.handler? command' := by
  simp only [handler?, register, List.lookup_cons]
  by_cases h : command = command'
  · simp [h]
  · have hne : (command' == command) = false := beq_eq_false_iff_ne.2 (Ne.symm h)
    simp [h, hne]

theorem latest?_snoc (regs : List (Registration σ)) (r : Registration σ) (command : String) :
    latest? (regs ++ [r]) command = if r.1 = command then some r.2 else latest? regs command := by
  simp only [latest?, List.filter_append]
  by_cases h : r.1 = command
  · simp [h]
  · simp [h]

/-- **The last registration of a command wins.** -/
theorem handler?_ofRegistrations (regs : List (Registration σ)) (command : String) :
    (ofRegistrations regs).handler? command = latest? regs command := by
  induction regs using List.reverseRecOn with
  | nil => rfl
  | append_singleton regs r ih =>
    rw [ofRegistrations_snoc, handler?_register, latest?_snoc, ih]

end SealedChat.Dispatcher
