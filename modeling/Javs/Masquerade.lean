import Javs.Lib.Proc
import Javs.Config

/-!
NAT on the host: switching it on, and off again.

Switching on is a sequence of commands, each of which may fail. A failing one ends the
sequence, and what the commands before it did to the host stays: the undoing is left to a
guard that is only made at the end.
-/

namespace Javs

open Lib

/-! ### The host -/

/-- What identifies a rule to iptables: its arguments behind the name of the chain. -/
abbrev Rule := List Text

structure Host where
  /-- Chain `POSTROUTING` of the table `nat`. -/
  postrouting : List Rule
  /-- Chain `FORWARD` of the table `filter`. -/
  forward : List Rule
  ipForward : Bool
  deriving DecidableEq

inductive Chain
  | postrouting
  | forward

def Host.update (c : Chain) (f : List Rule → List Rule) (h : Host) : Host :=
  match c with
  | .postrouting => { h with postrouting := f h.postrouting }
  | .forward => { h with forward := f h.forward }

def Host.rules (c : Chain) (h : Host) : List Rule :=
  match c with
  | .postrouting => h.postrouting
  | .forward => h.forward

abbrev HostM := Proc Host Err

def iptablesAppend (ok : Bool) (c : Chain) (r : Rule) : HostM Unit :=
  if ok then modify (Host.update c (· ++ [r])) else throw (.bail "iptables failed")

/-- `iptables -D`, which takes the first equal rule and fails if there is none. -/
def iptablesDelete (ok : Bool) (c : Chain) (r : Rule) : HostM Unit := do
  let h ← get
  if ok ∧ r ∈ h.rules c then modify (Host.update c (·.erase r))
  else throw (.bail "iptables failed")

def setIpForward (ok on : Bool) : HostM Unit :=
  if ok then modify fun h => { h with ipForward := on } else throw (.bail "write ip_forward")

def ignore (m : HostM Unit) : HostM Unit := tryCatch m fun _ => pure ()

def hostContext (msg : String) (m : HostM Unit) : HostM Unit :=
  tryCatch m fun _ => throw (.bail msg)

/-! ### The rules -/

def leadingOnes (m : UInt32) : ℕ :=
  ((List.range 32).takeWhile fun i => m.toNat.testBit (31 - i)).length

def subnetToCidr (ip mask : Ipv4Addr) : Text :=
  let network : Ipv4Addr := ip &&& mask
  Ipv4Addr.show network ++ ['/'] ++ dec (leadingOnes mask)

def masqueradeRule (cidr wan : Text) : Rule :=
  ["-s".toList, cidr, "-o".toList, wan, "-j".toList, "MASQUERADE".toList]

def outboundRule (tun wan : Text) : Rule :=
  ["-i".toList, tun, "-o".toList, wan, "-j".toList, "ACCEPT".toList]

def inboundRule (tun wan : Text) : Rule :=
  ["-i".toList, wan, "-o".toList, tun, "-m".toList, "state".toList, "--state".toList,
    "RELATED,ESTABLISHED".toList, "-j".toList, "ACCEPT".toList]

/-! ### On and off -/

structure NatGuard where
  tunIface : Text
  wanIface : Text
  cidr : Text
  priorIpForward : Option Bool

/-- Which of the commands of `enable_masquerade` succeed. A `-D` also fails where there is
nothing to delete. -/
structure Outcomes where
  read : Bool
  write : Bool
  delMasquerade : Bool
  delOutbound : Bool
  delInbound : Bool
  addMasquerade : Bool
  addOutbound : Bool
  addInbound : Bool

def enableMasquerade (o : Outcomes) (tun wan : Text) (tunIp tunNetmask : Ipv4Addr) :
    HostM NatGuard := do
  let cidr := subnetToCidr tunIp tunNetmask
  let h ← get
  let prior := if o.read then some h.ipForward else none
  if prior ≠ some true then
    hostContext "enable net.ipv4.ip_forward" (setIpForward o.write true)
  -- stale rules of a previous run
  ignore (iptablesDelete o.delMasquerade .postrouting (masqueradeRule cidr wan))
  ignore (iptablesDelete o.delOutbound .forward (outboundRule tun wan))
  ignore (iptablesDelete o.delInbound .forward (inboundRule tun wan))
  hostContext "install MASQUERADE"
    (iptablesAppend o.addMasquerade .postrouting (masqueradeRule cidr wan))
  hostContext "install FORWARD tun->wan"
    (iptablesAppend o.addOutbound .forward (outboundRule tun wan))
  hostContext "install FORWARD wan->tun (established)"
    (iptablesAppend o.addInbound .forward (inboundRule tun wan))
  return ⟨tun, wan, cidr, prior⟩

structure DropOutcomes where
  delInbound : Bool := true
  delOutbound : Bool := true
  delMasquerade : Bool := true
  write : Bool := true

def NatGuard.drop (g : NatGuard) (o : DropOutcomes) : HostM Unit := do
  ignore (iptablesDelete o.delInbound .forward (inboundRule g.tunIface g.wanIface))
  ignore (iptablesDelete o.delOutbound .forward (outboundRule g.tunIface g.wanIface))
  ignore (iptablesDelete o.delMasquerade .postrouting (masqueradeRule g.cidr g.wanIface))
  match g.priorIpForward with
  | some prev => ignore (setIpForward o.write prev)
  | none => pure ()

/-! ### What the commands do -/

def eraseIf (ok : Bool) (r : Rule) (l : List Rule) : List Rule := if ok then l.erase r else l

section Commands

variable (ok : Bool) (c : Chain) (r : Rule) (h : Host)

lemma iptablesDelete_apply : iptablesDelete ok c r h =
    if ok ∧ r ∈ h.rules c then (.ok (), h.update c (·.erase r))
    else (.error (.bail "iptables failed"), h) := by
  rw [iptablesDelete, Proc.get_bind]
  split <;> rfl

lemma update_eq_self {f : List Rule → List Rule} (hf : f (h.rules c) = h.rules c) :
    h.update c f = h := by
  obtain ⟨nat, fwd, on⟩ := h
  cases c with
  | postrouting => exact congrArg (fun l => Host.mk l fwd on) hf
  | forward => exact congrArg (fun l => Host.mk nat l on) hf

lemma ignore_delete :
    ignore (iptablesDelete ok c r) h = (.ok (), h.update c (eraseIf ok r)) := by
  have happly := iptablesDelete_apply ok c r h
  by_cases hdel : ok ∧ r ∈ h.rules c
  · rw [if_pos hdel] at happly
    have herase : eraseIf ok r = (·.erase r) := by
      rw [hdel.1]
      rfl
    rw [ignore, Proc.tryCatch_ok happly, herase]
  · rw [if_neg hdel] at happly
    have hsame : eraseIf ok r (h.rules c) = h.rules c := by
      cases ok with
      | false => rfl
      | true => exact List.erase_of_not_mem fun hr => hdel ⟨rfl, hr⟩
    rw [ignore, Proc.tryCatch_error happly, update_eq_self c h hsame]
    rfl

lemma context_append (msg : String) : hostContext msg (iptablesAppend ok c r) h =
    if ok then (.ok (), h.update c (· ++ [r])) else (.error (.bail msg), h) := by
  cases ok <;> rfl

lemma ignore_write (on : Bool) :
    ignore (setIpForward ok on) h = (.ok (), if ok then { h with ipForward := on } else h) := by
  cases ok <;> rfl

lemma context_write (msg : String) (on : Bool) : hostContext msg (setIpForward ok on) h =
    if ok then (.ok (), { h with ipForward := on }) else (.error (.bail msg), h) := by
  cases ok <;> rfl

end Commands

section Enable

variable (o : Outcomes) (tun wan : Text) (tunIp tunNetmask : Ipv4Addr) (h : Host)

/-- The switch has to be written, and that fails. -/
def WriteFails : Prop := ¬ (o.read = true ∧ h.ipForward = true) ∧ o.write = false

instance : Decidable (WriteFails o h) := inferInstanceAs (Decidable (_ ∧ _))

/-- The host with forwarding on, and without the stale copies that were deleted. -/
def purged : Host where
  postrouting := eraseIf o.delMasquerade (masqueradeRule (subnetToCidr tunIp tunNetmask) wan)
    h.postrouting
  forward := eraseIf o.delInbound (inboundRule tun wan)
    (eraseIf o.delOutbound (outboundRule tun wan) h.forward)
  ipForward := true

/-- **Switching on**, with each place where it can end. -/
lemma enableMasquerade_apply : enableMasquerade o tun wan tunIp tunNetmask h =
    let masquerade := masqueradeRule (subnetToCidr tunIp tunNetmask) wan
    let h₀ := purged o tun wan tunIp tunNetmask h
    let h₁ := { h₀ with postrouting := h₀.postrouting ++ [masquerade] }
    let h₂ := { h₁ with forward := h₁.forward ++ [outboundRule tun wan] }
    let h₃ := { h₂ with forward := h₂.forward ++ [inboundRule tun wan] }
    if WriteFails o h then (.error (.bail "enable net.ipv4.ip_forward"), h)
    else if o.addMasquerade = false then (.error (.bail "install MASQUERADE"), h₀)
    else if o.addOutbound = false then (.error (.bail "install FORWARD tun->wan"), h₁)
    else if o.addInbound = false then
      (.error (.bail "install FORWARD wan->tun (established)"), h₂)
    else (.ok ⟨tun, wan, subnetToCidr tunIp tunNetmask, if o.read then some h.ipForward else none⟩,
      h₃) := by
  obtain ⟨read, write, d₁, d₂, d₃, a₁, a₂, a₃⟩ := o
  obtain ⟨nat, fwd, on⟩ := h
  unfold enableMasquerade WriteFails
  cases read <;> cases on <;> cases write <;> cases a₁ <;> cases a₂ <;> cases a₃ <;>
    simp [Proc.bind_apply, context_write, context_append, ignore_delete, Host.update, purged]

end Enable

lemma drop_apply (g : NatGuard) (h : Host) : (g.drop {} h).2 =
    { postrouting := h.postrouting.erase (masqueradeRule g.cidr g.wanIface)
      forward := (h.forward.erase (inboundRule g.tunIface g.wanIface)).erase
        (outboundRule g.tunIface g.wanIface)
      ipForward := g.priorIpForward.getD h.ipForward } := by
  unfold NatGuard.drop
  rcases g.priorIpForward with _ | prev <;>
    simp [Proc.bind_apply, ignore_delete, ignore_write, Host.update, eraseIf]

/-! ### Rules put back where they were -/

section Lists

variable {r q : Rule} {l : List Rule} {ok : Bool}

/-- There are copies of the rule, and nothing else from the first one on. -/
def Trailing (r : Rule) (l : List Rule) : Prop := r ∈ l ∧ ∀ x ∈ l.dropWhile (· ≠ r), x = r

instance : Decidable (Trailing r l) := inferInstanceAs (Decidable (_ ∧ _))

lemma append_eq_cons_iff : l ++ [r] = r :: l ↔ ∀ x ∈ l, x = r := by
  induction l with
  | nil => simp
  | cons x l ih =>
    constructor
    · intro h
      obtain ⟨rfl, hrest⟩ := List.cons.inj h
      intro y hy
      rcases List.mem_cons.mp hy with rfl | hy
      · rfl
      · exact ih.mp hrest y hy
    · intro h
      have hx : x = r := h x List.mem_cons_self
      subst hx
      exact congrArg (x :: ·) (ih.mpr fun y hy => h y (List.mem_cons_of_mem x hy))

lemma erase_append_eq_iff : l.erase r ++ [r] = l ↔ Trailing r l := by
  induction l with
  | nil => simp [Trailing]
  | cons x l ih =>
    by_cases hx : x = r
    · subst hx
      rw [List.erase_cons_head, append_eq_cons_iff]
      simp [Trailing]
    · rw [List.erase_cons_tail (by simpa using hx), List.cons_append, List.cons.injEq]
      simp only [true_and, ih]
      simp [Trailing, hx, Ne.symm hx]

lemma count_eraseIf_self : (eraseIf ok r l).count r = l.count r - ok.toNat := by
  cases ok <;> simp [eraseIf]

lemma count_eraseIf_of_ne (h : r ≠ q) : (eraseIf ok q l).count r = l.count r := by
  cases ok
  · rfl
  · exact List.count_erase_of_ne h

lemma eraseIf_comm (ok ok' : Bool) :
    eraseIf ok q (eraseIf ok' r l) = eraseIf ok' r (eraseIf ok q l) := by
  cases ok <;> cases ok' <;> simp [eraseIf, List.erase_comm]

lemma count_undone : ((eraseIf ok r l ++ [r]).erase r).count r = l.count r - ok.toNat := by
  rw [List.count_erase_self, List.count_append, List.count_singleton_self, count_eraseIf_self]
  omega

lemma count_undone_two (hq : r ≠ q) (ok ok' : Bool) (l : List Rule) :
    let l' := ((eraseIf ok' q (eraseIf ok r l) ++ [r] ++ [q]).erase q).erase r
    l'.count r = l.count r - ok.toNat ∧ l'.count q = l.count q - ok'.toNat := by
  constructor
  · rw [List.count_erase_self, List.count_erase_of_ne hq, List.count_append, List.count_append,
      List.count_singleton_self, List.count_singleton, if_neg (by simpa using hq.symm),
      count_eraseIf_of_ne hq, count_eraseIf_self]
    omega
  · rw [List.count_erase_of_ne hq.symm, List.count_erase_self, List.count_append,
      List.count_append, List.count_singleton_self, List.count_singleton,
      if_neg (by simpa using hq), count_eraseIf_self, count_eraseIf_of_ne hq.symm]
    omega

lemma append_eq_eraseIf_iff (hq : r ≠ q) (ok₁ ok₂ : Bool) :
    (∃ c d, eraseIf ok₂ q (eraseIf ok₁ r l) ++ [r] = eraseIf d q (eraseIf c r l)) ↔
      ok₁ = true ∧ Trailing r (eraseIf ok₂ q l) := by
  constructor
  · rintro ⟨c, d, h⟩
    have hr := congrArg (List.count r) h
    have hcq := congrArg (List.count q) h
    rw [List.count_append, List.count_singleton_self, count_eraseIf_of_ne hq, count_eraseIf_self,
      count_eraseIf_of_ne hq, count_eraseIf_self] at hr
    rw [List.count_append, count_eraseIf_self, count_eraseIf_of_ne hq.symm, count_eraseIf_self,
      count_eraseIf_of_ne hq.symm, List.count_singleton, if_neg (by simpa using hq)] at hcq
    -- as many copies of `r` as before: one has been taken out, and none is to be missing
    have hok₁ : ok₁ = true := by
      cases ok₁ with
      | true => rfl
      | false =>
        simp at hr
        omega
    have hc : c = false := by
      cases c with
      | false => rfl
      | true => simp [hok₁] at hr
    have hd : eraseIf d q l = eraseIf ok₂ q l := by
      by_cases hmem : q ∈ l
      · have hpos := List.count_pos_iff.mpr hmem
        cases d <;> cases ok₂ <;> simp at hcq <;> first | rfl | omega
      · cases d <;> cases ok₂ <;> simp [eraseIf, List.erase_of_not_mem hmem]
    subst hok₁ hc
    refine ⟨rfl, erase_append_eq_iff.mp ?_⟩
    rw [eraseIf_comm] at h
    exact h.trans hd
  · rintro ⟨rfl, h⟩
    refine ⟨false, ok₂, ?_⟩
    rw [eraseIf_comm]
    exact erase_append_eq_iff.mpr h

end Lists

/-! ### What is left behind -/

section Traces

variable (o : Outcomes) (tun wan : Text) (tunIp tunNetmask : Ipv4Addr) (h : Host)

/-- The host is as before, apart from stale copies of the three rules: of each the first copy may
have been removed. -/
def AsBefore (masquerade outbound inbound : Rule) (h h' : Host) : Prop :=
  h'.ipForward = h.ipForward ∧ (∃ c, h'.postrouting = eraseIf c masquerade h.postrouting) ∧
    ∃ c d, h'.forward = eraseIf d inbound (eraseIf c outbound h.forward)

/-- What is asked of switching NAT on: if it fails, the host is as before, and if it succeeds,
switching off leaves none of the rules behind and the switch as it was read. -/
def LeavesNoTrace : Prop :=
  let masquerade := masqueradeRule (subnetToCidr tunIp tunNetmask) wan
  match enableMasquerade o tun wan tunIp tunNetmask h with
  | (.error _, h') => AsBefore masquerade (outboundRule tun wan) (inboundRule tun wan) h h'
  | (.ok g, h') =>
    let h'' := (g.drop {} h').2
    masquerade ∉ h''.postrouting ∧ outboundRule tun wan ∉ h''.forward ∧
      inboundRule tun wan ∉ h''.forward ∧ (o.read = true → h''.ipForward = h.ipForward)

/-- There is at most one copy of the rule, and none if deleting it fails. -/
def AtMostStale (ok : Bool) (r : Rule) (l : List Rule) : Prop := l.count r ≤ ok.toNat

/-- When it is so: the first command already fails; or none does, and of each rule there was at
most the one stale copy that could be deleted; or forwarding was on already, and each rule that
was added before a command failed had its stale copies at the end of its chain, of which the
first had been deleted. -/
def TraceFree : Prop :=
  let masquerade := masqueradeRule (subnetToCidr tunIp tunNetmask) wan
  WriteFails o h ∨
    if o.addMasquerade ∧ o.addOutbound ∧ o.addInbound then
      AtMostStale o.delMasquerade masquerade h.postrouting ∧
        AtMostStale o.delOutbound (outboundRule tun wan) h.forward ∧
        AtMostStale o.delInbound (inboundRule tun wan) h.forward
    else
      h.ipForward = true ∧
        (o.addMasquerade = true →
          o.delMasquerade = true ∧ Trailing masquerade h.postrouting) ∧
        (o.addMasquerade = true → o.addOutbound = true →
          o.delOutbound = true ∧
            Trailing (outboundRule tun wan) (eraseIf o.delInbound (inboundRule tun wan) h.forward))

lemma outbound_ne_inbound : outboundRule tun wan ≠ inboundRule tun wan := by
  intro heq
  have hlen := congrArg List.length heq
  simp [outboundRule, inboundRule] at hlen

variable {o tun wan tunIp tunNetmask h}

lemma masquerade_asBefore_iff {r : Rule} {ok : Bool} {l : List Rule} :
    (∃ c, eraseIf ok r l ++ [r] = eraseIf c r l) ↔ ok = true ∧ Trailing r l := by
  constructor
  · rintro ⟨c, heq⟩
    have hcount := congrArg (List.count r) heq
    rw [List.count_append, List.count_singleton_self, count_eraseIf_self, count_eraseIf_self]
      at hcount
    cases ok <;> cases c <;> simp at hcount <;> try omega
    exact ⟨rfl, erase_append_eq_iff.mp heq⟩
  · rintro ⟨rfl, htrail⟩
    exact ⟨false, erase_append_eq_iff.mpr htrail⟩

lemma not_mem_iff_atMostStale {r : Rule} {ok : Bool} {l l' : List Rule}
    (hcount : l'.count r = l.count r - ok.toNat) : r ∉ l' ↔ AtMostStale ok r l := by
  rw [← List.count_eq_zero, hcount, AtMostStale]
  omega

/-- **NAT leaves no trace exactly where** `TraceFree` holds. -/
theorem leavesNoTrace_iff (o : Outcomes) (tun wan : Text) (tunIp tunNetmask : Ipv4Addr) (h : Host) :
    LeavesNoTrace o tun wan tunIp tunNetmask h ↔ TraceFree o tun wan tunIp tunNetmask h := by
  have hne := outbound_ne_inbound tun wan
  unfold LeavesNoTrace TraceFree
  rw [enableMasquerade_apply]
  dsimp only
  by_cases hw : WriteFails o h
  · rw [if_pos hw]
    exact ⟨fun _ => .inl hw, fun _ => ⟨rfl, ⟨false, rfl⟩, false, false, rfl⟩⟩
  rw [if_neg hw]
  simp only [hw, false_or]
  rcases ha₁ : o.addMasquerade with _ | _
  · -- nothing has been added yet, but forwarding is on
    simp only [if_true, Bool.false_eq_true, false_and, if_false, false_implies, and_true]
    refine ⟨fun hb => hb.1.symm, fun hon => ⟨hon.symm, ⟨_, rfl⟩, _, _, rfl⟩⟩
  -- from here on a failing command leaves the rules added before it, with no guard to undo them
  rcases ha₂ : o.addOutbound with _ | _
  · simp only [Bool.true_eq_false, if_false, if_true, Bool.false_eq_true, false_and, and_false,
      true_implies, false_implies, and_true, AsBefore, purged]
    rw [masquerade_asBefore_iff]
    refine ⟨fun hb => ⟨hb.1.symm, hb.2.1⟩, fun hb => ⟨hb.1.symm, hb.2, _, _, rfl⟩⟩
  rcases ha₃ : o.addInbound with _ | _
  · simp only [Bool.true_eq_false, if_false, if_true, Bool.false_eq_true, and_false, true_implies,
      AsBefore, purged]
    rw [masquerade_asBefore_iff, append_eq_eraseIf_iff hne]
    refine ⟨fun hb => ⟨hb.1.symm, hb.2⟩, fun hb => ⟨hb.1.symm, hb.2⟩⟩
  · simp only [Bool.true_eq_false, if_false, and_self, if_true, drop_apply, purged]
    -- every command succeeded, so the guard is made and its drop undoes one copy of each rule
    obtain ⟨hout, hin⟩ := count_undone_two hne o.delOutbound o.delInbound h.forward
    have hread : o.read = true →
        (if o.read = true then some h.ipForward else none).getD true = h.ipForward := by
      intro hr
      rw [if_pos hr]
      rfl
    rw [not_mem_iff_atMostStale count_undone, not_mem_iff_atMostStale hout,
      not_mem_iff_atMostStale hin]
    exact ⟨fun hb => ⟨hb.1, hb.2.1, hb.2.2.1⟩, fun hb => ⟨hb.1, hb.2.1, hb.2.2, hread⟩⟩

end Traces

def bareHost : Host := ⟨[], [], false⟩

def secondAddFails : Outcomes := ⟨true, true, true, true, true, true, false, true⟩

/-- Then the masquerading rule stays, and forwarding stays on. -/
theorem failed_enable_leaves_rule :
    let (result, h') := enableMasquerade secondAddFails "tun0".toList "eth0".toList 0x0A080001
      0xFFFFFF00 bareHost
    result.isOk = false ∧
      h'.postrouting = [masqueradeRule "10.8.0.0/24".toList "eth0".toList] ∧
      h'.ipForward = true ∧
      ¬ LeavesNoTrace secondAddFails "tun0".toList "eth0".toList 0x0A080001 0xFFFFFF00
        bareHost := by
  refine ⟨rfl, by decide +kernel, rfl, ?_⟩
  rintro ⟨hon, -⟩
  cases hon

end Javs
