import Kerberos.Lib.Bits
import Kerberos.Spec.BuildAS

/-!
# What the KDC does to the flags of a ticket

On the way to a ticket the KDC takes away flags of one mask and adds flags of another
(`lost`, `gained`); the realm's policy and the restrictions of the records stay within
them. A flag outside both masks is never touched (`has_eq_of_edit`).
-/

namespace Kerberos

open Bits

/-- The flags the KDC may take away. -/
def lost : Flags := Ticket.Forwardable ||| Ticket.Proxiable ||| Ticket.Invalid ||| Ticket.Renewable

/-- The flags the KDC may add. -/
def gained : Flags :=
  Ticket.Forwarded ||| Ticket.Postdated ||| Ticket.Invalid ||| Ticket.Renewable ||| Ticket.Transited

variable {bit : Flags}

theorem edit_clear (h : bit &&& lost = bit) (flags : Flags) :
    Edit lost gained flags (clear flags bit) := Edit.clear h flags

theorem edit_clearUnless (h : bit &&& lost = bit) (allowed : Bool) (flags : Flags) :
    Edit lost gained flags (clearUnless allowed bit flags) := by
  unfold clearUnless
  split
  · exact Edit.refl ..
  · exact edit_clear h flags

theorem edit_setWhen (h : bit &&& gained = bit) (on : Bool) (flags : Flags) :
    Edit lost gained flags (setWhen on bit flags) := by
  unfold setWhen
  split
  · exact Edit.set h flags
  · exact Edit.refl ..

theorem applyFlagPolicy_edit (s : Server) (flags : Flags) :
    Edit lost gained flags (applyFlagPolicy s flags) := by
  unfold applyFlagPolicy
  split
  · exact Edit.refl ..
  · exact ((edit_clearUnless (by decide) _ _).trans (edit_clearUnless (by decide) _ _)).trans
      (edit_clearUnless (by decide) _ _)

theorem applyPrincipalFlagPolicy_edit (flags : Flags) (client service : Option PrincipalRecord) :
    Edit lost gained flags (applyPrincipalFlagPolicy flags client service) := by
  have restrict {bit : Flags} (h : bit &&& lost = bit) (disallow flags : Flags) :
      Edit lost gained flags (clearUnless (allows service disallow) bit
        (clearUnless (allows client disallow) bit flags)) :=
    (edit_clearUnless h _ _).trans (edit_clearUnless h _ _)
  exact ((restrict (by decide) _ _).trans (restrict (by decide) _ _)).trans
    (restrict (by decide) _ _)

theorem has_of_has {off on old new f : Flags} (h : Edit off on old new) (hf : f &&& on = 0#32)
    (hnew : has new f = true) : has old f = true := by
  simp only [has, bne_iff_ne] at hnew ⊢
  exact h.and_ne_zero hf hnew

theorem has_eq_of_edit {old new f : Flags} (h : Edit lost gained old new) (hoff : f &&& lost = 0#32)
    (hon : f &&& gained = 0#32) : has new f = has old f := by
  rw [Bool.eq_iff_iff]
  exact ⟨has_of_has h hon, has_of_has h.symm hoff⟩

theorem has_comm (word f : Flags) : has word f = has f word := by
  unfold has
  rw [BitVec.and_comm]

/-- Setting a flag leaves the others. -/
theorem has_setWhen {on : Bool} {flags f : Flags} (h : has bit f = false) :
    has (setWhen on bit flags) f = has flags f := by
  unfold setWhen
  split
  · rw [has_comm, has_or, has_comm f bit, h, Bool.or_false, has_comm]
  · rfl

end Kerberos
