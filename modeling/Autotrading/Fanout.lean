import Mathlib.Data.Finset.Basic
import Mathlib.Data.List.Count
import Mathlib.Data.List.Infix
import Mathlib.Tactic.Common

/-!
# Fan-out to a changing group

Messages go out one after the other. A round starts with the members there are and sends the message
to one after the other, while members join and leave; who could not be reached is no member after
the round. Rounds do not overlap, so a member sees the messages in order, without a gap from the
time it joined.
-/
namespace Autotrading.Fanout

variable {W M : Type}

/-- What a round sends, to whom next, to whom after that, and who could not be reached. -/
structure Round (W M : Type) where
  message : M
  next : W
  rest : List W
  dead : List W

inductive Phase (W M : Type)
  | idle
  | sending (round : Round W M)
  | stopped

structure Group (W M : Type) where
  members : Finset W
  phase : Phase W M

inductive Action (W M : Type)
  | pass
  | join (w : W)
  | leave (w : W)
  /-- A round starts; the recipients are the members in some order. -/
  | start (message : M) (recipients : List W)
  | delivered
  | failed
  | stop

/-- Who joins. -/
def Action.joined? : Action W M → Option W
  | join w => some w
  | _ => none

/-- What goes out from now on. -/
def Action.started? : Action W M → Option M
  | start message _ => some message
  | _ => none

namespace Group

/-- Who the round will still send to. -/
def awaiting (g : Group W M) : List W :=
  match g.phase with
  | .sending round => round.next :: round.rest
  | _ => []

def dead (g : Group W M) : List W :=
  match g.phase with
  | .sending round => round.dead
  | _ => []

/-- Nobody is in a round twice. -/
def WellFormed (g : Group W M) : Prop := (g.awaiting ++ g.dead).Nodup

/-- A member that the round has not failed to reach, and there will be further rounds. -/
structure Live (w : W) (g : Group W M) : Prop where
  member : w ∈ g.members
  alive : w ∉ g.dead
  going : g.phase ≠ .stopped

/-- Nothing will reach `w` unless it joins. -/
def Past (w : W) (g : Group W M) : Prop :=
  g.phase = .stopped ∨ (w ∈ g.members → w ∈ g.dead) ∧ w ∉ g.awaiting

theorem Live.not_past {w : W} {g : Group W M} (h : g.Live w) : ¬ g.Past w := by
  intro hpast
  cases hpast with
  | inl hstop => exact h.going hstop
  | inr hgone => exact h.alive (hgone.1 h.member)

section
variable [DecidableEq W]

/-- On to the next recipient; at the end of the round the dead are removed. -/
def advance (g : Group W M) (message : M) (recipients dead : List W) : Group W M :=
  match recipients with
  | [] => { g with members := g.members \ dead.toFinset, phase := .idle }
  | next :: rest => { g with phase := .sending ⟨message, next, rest, dead⟩ }

/-- What the round owes to `w`. -/
def owed (w : W) (g : Group W M) : List M :=
  match g.phase with
  | .sending round => if w ∈ round.next :: round.rest then [round.message] else []
  | _ => []

/-- One action; `none` if it cannot happen now. -/
def step (g : Group W M) : Action W M → Option (Group W M)
  | .pass => some g
  | .join w => some { g with members := insert w g.members }
  | .leave w => some { g with members := g.members.erase w }
  | .start message recipients =>
    match g.phase with
    | .idle =>
      if recipients.Nodup ∧ recipients.toFinset = g.members then
        some (g.advance message recipients [])
      else none
    | _ => none
  | .delivered =>
    match g.phase with
    | .sending round => some (g.advance round.message round.rest round.dead)
    | _ => none
  | .failed =>
    match g.phase with
    | .sending round => some (g.advance round.message round.rest (round.dead ++ [round.next]))
    | _ => none
  | .stop =>
    match g.phase with
    | .stopped => none
    | _ => some { g with phase := .stopped }

/-- What the action brings to `w`. -/
def output (w : W) (g : Group W M) : Action W M → List M
  | .delivered =>
    match g.phase with
    | .sending round => if round.next = w then [round.message] else []
    | _ => []
  | _ => []

def run : Group W M → List (Action W M) → Option (Group W M)
  | g, [] => some g
  | g, a :: as => (step g a).bind fun g => run g as

/-- What `w` gets in a run. -/
def received (w : W) : Group W M → List (Action W M) → List M
  | _, [] => []
  | g, a :: as => output w g a ++ ((step g a).map fun g => received w g as).getD []

end
end Group

/-- What goes out in a run. -/
def messages (as : List (Action W M)) : List M := as.filterMap Action.started?

theorem messages_cons {a : Action W M} {as : List (Action W M)} :
     messages (a :: as) = a.started?.toList ++ messages as := by
  cases h : a.started? <;> simp [messages, h]

theorem messages_append {as bs : List (Action W M)} :
    messages (as ++ bs) = messages as ++ messages bs := List.filterMap_append

open Autotrading.Fanout.Group

variable [DecidableEq W] {w : W} {g g' : Group W M} {a : Action W M} {as : List (Action W M)}

/-! ## One step -/

section Advance
variable {message : M} {recipients dead : List W}

theorem awaiting_advance : (g.advance message recipients dead).awaiting = recipients := by
  cases recipients <;> rfl

theorem owed_advance : (g.advance message recipients dead).owed w =
    if w ∈ recipients then [message] else [] := by
  cases recipients with
  | nil => simp [advance, owed]
  | cons next rest => simp [advance, owed]

theorem wellFormed_advance (h : (recipients ++ dead).Nodup) :
    (g.advance message recipients dead).WellFormed := by
  cases recipients with
  | nil => simp [advance, WellFormed, awaiting, Group.dead]
  | cons next rest => exact h

/-- Who is dead, or no member, is past when the round has nothing more for it. -/
theorem past_advance (hdead : w ∈ g.members → w ∈ dead) (hnone : w ∉ recipients) :
    (g.advance message recipients dead).Past w := by
  cases recipients with
  | nil =>
    refine .inr ⟨fun hmem => ?_, by simp [advance, awaiting]⟩
    simp only [advance, Finset.mem_sdiff, List.mem_toFinset] at hmem
    exact absurd (hdead hmem.1) hmem.2
  | cons next rest => exact .inr ⟨hdead, hnone⟩

end Advance

theorem owed_of_sending {round : Round W M} (h : g.phase = .sending round) :
    g.owed w = if w ∈ round.next :: round.rest then [round.message] else [] := by
  rw [owed, h]

theorem owed_of_past (h : g.Past w) : g.owed w = [] := by
  cases hphase : g.phase with
  | sending round =>
    have hnone : w ∉ round.next :: round.rest := by simpa [awaiting, hphase] using
      (h.resolve_left (by simp [hphase])).2
    rw [owed_of_sending hphase, if_neg hnone]
  | idle => simp [owed, hphase]
  | stopped => simp [owed, hphase]

theorem output_of_past (h : g.Past w) : output w g a = [] := by
  cases a with
  | delivered =>
    cases hphase : g.phase with
    | sending round =>
      have hnone : w ∉ round.next :: round.rest := by simpa [awaiting, hphase] using
        (h.resolve_left (by simp [hphase])).2
      have hne : round.next ≠ w := fun he => hnone (by simp [he])
      simp only [output, hphase, if_neg hne]
    | idle => simp [output, hphase]
    | stopped => simp [output, hphase]
  | _ => rfl

theorem step_wellFormed (hwf : g.WellFormed) (h : step g a = some g') : g'.WellFormed := by
  cases a with
  | pass =>
    obtain rfl := Option.some.inj h
    exact hwf
  | join v =>
    obtain rfl := Option.some.inj h
    exact hwf
  | leave v =>
    obtain rfl := Option.some.inj h
    exact hwf
  | start message recipients =>
    cases hphase : g.phase with
    | idle =>
      simp only [step, hphase, Option.ite_none_right_eq_some, Option.some.injEq] at h
      obtain ⟨⟨hnodup, -⟩, rfl⟩ := h
      exact wellFormed_advance (by simpa using hnodup)
    | _ => simp [step, hphase] at h
  | delivered =>
    cases hphase : g.phase with
    | sending round =>
      simp only [step, hphase, Option.some.injEq] at h
      subst h
      simp only [WellFormed, awaiting, Group.dead, hphase, List.cons_append,
        List.nodup_cons] at hwf
      exact wellFormed_advance hwf.2
    | _ => simp [step, hphase] at h
  | failed =>
    cases hphase : g.phase with
    | sending round =>
      simp only [step, hphase, Option.some.injEq] at h
      subst h
      simp only [WellFormed, awaiting, Group.dead, hphase] at hwf
      apply wellFormed_advance
      rw [← List.append_assoc]
      exact (List.perm_append_singleton _ _).nodup_iff.mpr hwf
    | _ => simp [step, hphase] at h
  | stop =>
    cases hphase : g.phase with
    | stopped => simp [step, hphase] at h
    | _ =>
      simp only [step, hphase, Option.some.injEq] at h
      subst h
      simp [WellFormed, awaiting, Group.dead]

/-- A round is about members, from its start on. -/
theorem step_awaiting (h : step g a = some g') :
    ∀ v ∈ g'.awaiting, v ∈ g.awaiting ∨ v ∈ g.members := by
  intro v hv
  cases a with
  | pass | join | leave =>
    obtain rfl := Option.some.inj h
    exact .inl hv
  | start message recipients =>
    cases hphase : g.phase with
    | idle =>
      simp only [step, hphase, Option.ite_none_right_eq_some, Option.some.injEq] at h
      obtain ⟨⟨-, hmembers⟩, rfl⟩ := h
      rw [awaiting_advance] at hv
      exact .inr (by rwa [← hmembers, List.mem_toFinset])
    | _ => simp [step, hphase] at h
  | delivered | failed =>
    cases hphase : g.phase with
    | sending round =>
      simp only [step, hphase, Option.some.injEq] at h
      subst h
      rw [awaiting_advance] at hv
      exact .inl (by simp [awaiting, hphase, hv])
    | _ => simp [step, hphase] at h
  | stop =>
    cases hphase : g.phase with
    | stopped => simp [step, hphase] at h
    | _ =>
      simp only [step, hphase, Option.some.injEq] at h
      subst h
      simp [awaiting] at hv

/-- Only joining brings `w` back. -/
theorem step_past (hpast : g.Past w) (hjoin : a.joined? ≠ some w) (h : step g a = some g') :
    g'.Past w := by
  cases a with
  | pass =>
    obtain rfl := Option.some.inj h
    exact hpast
  | join v =>
    obtain rfl := Option.some.inj h
    refine hpast.imp id fun hgone => ⟨fun hmem => hgone.1 ?_, hgone.2⟩
    have hne : w ≠ v := fun he => hjoin (by rw [he, Action.joined?])
    exact (Finset.mem_insert.mp hmem).resolve_left hne
  | leave v =>
    obtain rfl := Option.some.inj h
    exact hpast.imp id fun hgone => ⟨fun hmem => hgone.1 (Finset.mem_of_mem_erase hmem), hgone.2⟩
  | start message recipients =>
    cases hphase : g.phase with
    | idle =>
      simp only [step, hphase, Option.ite_none_right_eq_some, Option.some.injEq] at h
      obtain ⟨⟨-, hmembers⟩, rfl⟩ := h
      have hgone := (hpast.resolve_left (by simp [hphase])).1
      simp only [Group.dead, hphase, List.not_mem_nil, imp_false] at hgone
      refine past_advance (fun hmem => absurd hmem hgone) ?_
      rwa [← List.mem_toFinset, hmembers]
    | _ => simp [step, hphase] at h
  | delivered =>
    cases hphase : g.phase with
    | sending round =>
      simp only [step, hphase, Option.some.injEq] at h
      subst h
      have hgone := hpast.resolve_left (by simp [hphase])
      simp only [Group.dead, awaiting, hphase, List.mem_cons, not_or] at hgone
      exact past_advance hgone.1 hgone.2.2
    | _ => simp [step, hphase] at h
  | failed =>
    cases hphase : g.phase with
    | sending round =>
      simp only [step, hphase, Option.some.injEq] at h
      subst h
      have hgone := hpast.resolve_left (by simp [hphase])
      simp only [Group.dead, awaiting, hphase, List.mem_cons, not_or] at hgone
      exact past_advance (fun hmem => List.mem_append_left _ (hgone.1 hmem)) hgone.2.2
    | _ => simp [step, hphase] at h
  | stop =>
    cases hphase : g.phase with
    | stopped => simp [step, hphase] at h
    | _ =>
      simp only [step, hphase, Option.some.injEq] at h
      subst h
      exact .inl rfl

/-- Who could not be reached is past. -/
theorem step_failed_past {round : Round W M} (hwf : g.WellFormed)
    (hphase : g.phase = .sending round) (h : step g .failed = some g') : g'.Past round.next := by
  simp only [step, hphase, Option.some.injEq] at h
  subst h
  simp only [WellFormed, awaiting, Group.dead, hphase, List.cons_append, List.nodup_cons,
    List.mem_append, not_or] at hwf
  exact past_advance (fun _ => by simp) hwf.1.1

/-- What `w` was owed and what goes out is what it gets and what it is owed then; or it gets nothing
and is past. -/
theorem step_flow (hwf : g.WellFormed) (h : step g a = some g') :
    g.owed w ++ a.started?.toList = output w g a ++ g'.owed w ∨
      output w g a = [] ∧ g'.Past w := by
  cases a with
  | pass =>
    obtain rfl := Option.some.inj h
    exact .inl (by simp [Action.started?, output])
  | join v =>
    obtain rfl := Option.some.inj h
    exact .inl (by simp [Action.started?, output, owed])
  | leave v =>
    obtain rfl := Option.some.inj h
    exact .inl (by simp [Action.started?, output, owed])
  | start message recipients =>
    cases hphase : g.phase with
    | idle =>
      simp only [step, hphase, Option.ite_none_right_eq_some, Option.some.injEq] at h
      obtain ⟨⟨-, hmembers⟩, rfl⟩ := h
      by_cases hmem : w ∈ recipients
      · have hnil : g.owed w = [] := by rw [owed, hphase]
        exact .inl (by simp [Action.started?, output, owed_advance, hmem, hnil])
      · have hnot : w ∉ g.members := by rwa [← hmembers, List.mem_toFinset]
        exact .inr ⟨rfl, past_advance (fun hin => absurd hin hnot) hmem⟩
    | _ => simp [step, hphase] at h
  | delivered =>
    cases hphase : g.phase with
    | sending round =>
      simp only [step, hphase, Option.some.injEq] at h
      subst h
      simp only [WellFormed, awaiting, Group.dead, hphase, List.cons_append, List.nodup_cons,
        List.mem_append, not_or] at hwf
      by_cases hnext : round.next = w
      · subst hnext
        exact .inl (by simp [Action.started?, output, hphase, owed_of_sending hphase,
          owed_advance, hwf.1.1])
      · have hnext' : w ≠ round.next := Ne.symm hnext
        exact .inl (by simp [Action.started?, output, hphase, owed_of_sending hphase,
          owed_advance, hnext, hnext'])
    | _ => simp [step, hphase] at h
  | failed =>
    cases hphase : g.phase with
    | sending round =>
      by_cases hnext : round.next = w
      · exact .inr ⟨rfl, hnext ▸ step_failed_past hwf hphase h⟩
      · simp only [step, hphase, Option.some.injEq] at h
        subst h
        have hnext' : w ≠ round.next := Ne.symm hnext
        exact .inl (by simp [Action.started?, output, owed_of_sending hphase, owed_advance,
          hnext'])
    | _ => simp [step, hphase] at h
  | stop =>
    cases hphase : g.phase with
    | stopped => simp [step, hphase] at h
    | _ =>
      simp only [step, hphase, Option.some.injEq] at h
      subst h
      exact .inr ⟨rfl, .inl rfl⟩

/-! ## Runs -/

/-- `w` does not join in the run. -/
def NoJoin (w : W) (as : List (Action W M)) : Prop := ∀ a ∈ as, a.joined? ≠ some w

omit [DecidableEq W] in
theorem noJoin_cons : NoJoin w (a :: as) ↔ a.joined? ≠ some w ∧ NoJoin w as :=
  List.forall_mem_cons

theorem run_cons {g'' : Group W M} : run g (a :: as) = some g'' ↔
    ∃ g', step g a = some g' ∧ run g' as = some g'' := by
  simp only [run, Option.bind_eq_some_iff]

theorem received_cons (h : step g a = some g') :
    received w g (a :: as) = output w g a ++ received w g' as := by
  simp [received, h]

theorem run_append {bs : List (Action W M)} : run g (as ++ bs) = (run g as).bind (run · bs) := by
  induction as generalizing g with
  | nil => simp [run]
  | cons a as ih =>
    rw [List.cons_append, run, run]
    cases h : step g a with
    | none => rfl
    | some g' => simpa using ih

theorem received_append {bs : List (Action W M)} (h : run g as = some g') :
    received w g (as ++ bs) = received w g as ++ received w g' bs := by
  induction as generalizing g with
  | nil =>
    obtain rfl := Option.some.inj h
    rfl
  | cons a as ih =>
    obtain ⟨g₁, hstep, hrun⟩ := run_cons.mp h
    rw [List.cons_append, received_cons hstep, received_cons hstep, ih hrun, List.append_assoc]

theorem run_wellFormed (hwf : g.WellFormed) (h : run g as = some g') : g'.WellFormed := by
  induction as generalizing g with
  | nil =>
    obtain rfl := Option.some.inj h
    exact hwf
  | cons a as ih =>
    obtain ⟨g₁, hstep, hrun⟩ := run_cons.mp h
    exact ih (step_wellFormed hwf hstep) hrun

theorem run_past (hpast : g.Past w) (hjoin : NoJoin w as) (h : run g as = some g') :
    g'.Past w := by
  induction as generalizing g with
  | nil =>
    obtain rfl := Option.some.inj h
    exact hpast
  | cons a as ih =>
    obtain ⟨g₁, hstep, hrun⟩ := run_cons.mp h
    obtain ⟨hne, hjoin⟩ := noJoin_cons.mp hjoin
    exact ih (step_past hpast hne hstep) hjoin hrun

theorem received_of_past (hpast : g.Past w) (hjoin : NoJoin w as) (h : run g as = some g') :
    received w g as = [] := by
  induction as generalizing g with
  | nil => rfl
  | cons a as ih =>
    obtain ⟨g₁, hstep, hrun⟩ := run_cons.mp h
    obtain ⟨hne, hjoin⟩ := noJoin_cons.mp hjoin
    rw [received_cons hstep, output_of_past hpast, ih (step_past hpast hne hstep) hjoin hrun,
      List.nil_append]

/-- Without joining again, `w` gets what goes out in order and up to some message. -/
theorem received_prefix (hwf : g.WellFormed) (hjoin : NoJoin w as) (h : run g as = some g') :
    received w g as <+: g.owed w ++ messages as := by
  induction as generalizing g with
  | nil => exact List.nil_prefix
  | cons a as ih =>
    obtain ⟨g₁, hstep, hrun⟩ := run_cons.mp h
    obtain ⟨hne, hjoin⟩ := noJoin_cons.mp hjoin
    rw [received_cons hstep, messages_cons, ← List.append_assoc]
    cases step_flow (w := w) hwf hstep with
    | inl hflow =>
      rw [hflow, List.append_assoc]
      exact (List.prefix_append_right_inj _).mpr (ih (step_wellFormed hwf hstep) hjoin hrun)
    | inr hlost =>
      rw [hlost.1, received_of_past hlost.2 hjoin hrun]
      exact List.nil_prefix

/-- Who is live at the end got everything, but for what the round still owes it. -/
theorem received_of_live (hwf : g.WellFormed) (hjoin : NoJoin w as) (h : run g as = some g')
    (hlive : g'.Live w) : g.owed w ++ messages as = received w g as ++ g'.owed w := by
  induction as generalizing g with
  | nil =>
    obtain rfl := Option.some.inj h
    simp [messages, received]
  | cons a as ih =>
    obtain ⟨g₁, hstep, hrun⟩ := run_cons.mp h
    obtain ⟨hne, hjoin⟩ := noJoin_cons.mp hjoin
    rw [received_cons hstep, messages_cons, ← List.append_assoc]
    cases step_flow (w := w) hwf hstep with
    | inl hflow =>
      rw [hflow, List.append_assoc, List.append_assoc, ih (step_wellFormed hwf hstep) hjoin hrun]
    | inr hlost => exact absurd (run_past hlost.2 hjoin hrun) hlive.not_past

/-- A run in which `w` joins once, cut there. -/
theorem cut_join (hone : (as.filterMap Action.joined?).count w ≤ 1) :
    NoJoin w as ∨ ∃ before after, as = before ++ .join w :: after ∧ NoJoin w before ∧
      NoJoin w after := by
  induction as with
  | nil => exact .inl (by simp [NoJoin])
  | cons a as ih =>
    by_cases ha : a.joined? = some w
    · have hzero : (as.filterMap Action.joined?).count w = 0 := by
        simpa [List.filterMap_cons, ha] using hone
      have hnone : NoJoin w as := by
        intro b hb hjoin
        exact List.count_eq_zero.mp hzero (List.mem_filterMap.mpr ⟨b, hb, hjoin⟩)
      have hjoin : a = .join w := by
        cases a <;> simp [Action.joined?] at ha
        rw [ha]
      exact .inr ⟨[], as, by rw [hjoin, List.nil_append], by simp [NoJoin], hnone⟩
    · have hle : (as.filterMap Action.joined?).count w ≤ 1 := by
        cases hv : a.joined? with
        | none => simpa [List.filterMap_cons, hv] using hone
        | some v =>
          have hne : v ≠ w := fun he => ha (by rw [hv, he])
          simpa [List.filterMap_cons, hv, hne] using hone
      cases ih hle with
      | inl hnone => exact .inl (noJoin_cons.mpr ⟨ha, hnone⟩)
      | inr hcut =>
        obtain ⟨before, after, has, hbefore, hafter⟩ := hcut
        exact .inr ⟨a :: before, after, by rw [has, List.cons_append],
          noJoin_cons.mpr ⟨ha, hbefore⟩, hafter⟩

/-- Who joins once gets a stretch of what goes out. -/
theorem received_infix (hwf : g.WellFormed) (hpast : g.Past w)
    (hone : (as.filterMap Action.joined?).count w ≤ 1) (h : run g as = some g') :
    received w g as <:+: messages as := by
  cases cut_join hone with
  | inl hjoin =>
    rw [received_of_past hpast hjoin h]
    exact List.nil_infix
  | inr hcut =>
    obtain ⟨before, after, rfl, hbefore, hafter⟩ := hcut
    rw [run_append, Option.bind_eq_some_iff] at h
    obtain ⟨g₁, hrun₁, hrun⟩ := h
    obtain ⟨g₂, hstep, hrun₂⟩ := run_cons.mp hrun
    have hpast₁ := run_past hpast hbefore hrun₁
    have hwf₂ := step_wellFormed (run_wellFormed hwf hrun₁) hstep
    have howed : g₂.owed w = g₁.owed w := by
      obtain rfl := Option.some.inj hstep
      rfl
    have hprefix := received_prefix hwf₂ hafter hrun₂
    rw [howed, owed_of_past hpast₁, List.nil_append] at hprefix
    rw [received_append hrun₁, received_of_past hpast hbefore hrun₁, received_cons hstep,
      messages_append, messages_cons]
    simp only [output, Action.started?, Option.toList_none, List.nil_append]
    exact hprefix.isInfix.trans (List.suffix_append _ _).isInfix

end Autotrading.Fanout
