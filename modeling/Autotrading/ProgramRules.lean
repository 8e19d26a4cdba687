import Autotrading.Program

/-!
# Rules for programs

Rules that follow the syntax of a program, for conditions on its calls that may
look at the history. A postcondition may always be strengthened by the fact that
the history has grown (`Along.extends`), so facts about the past are carried along
as membership in the history.
-/
namespace Autotrading.Prog

variable {Op : Type} {Ans : Op → Type} {ε α β γ : Type}
  {Q : History Op Ans ε → Op → Prop} {h : History Op Ans ε}

/-- `o` was called and answered `a`. -/
def Answered (h : History Op Ans ε) (o : Op) (a : Ans o) : Prop := ∃ n, (n, ⟨o, .ok a⟩) ∈ h

theorem Answered.mono {h' : History Op Ans ε} {o : Op} {a : Ans o} (ha : Answered h o a)
    (hh : h <+: h') : Answered h' o a := by
  obtain ⟨n, hn⟩ := ha
  exact ⟨n, hh.subset hn⟩

theorem answered_append {n : ℕ} {o : Op} {a : Ans o} : Answered (h ++ [(n, ⟨o, .ok a⟩)]) o a :=
  ⟨n, by simp⟩

theorem Answered.append {o : Op} {a : Ans o} (ha : Answered h o a) (h' : History Op Ans ε) :
    Answered (h ++ h') o a := ha.mono (List.prefix_append h h')

/-- What the calls of a program keep of the history holds at each of them and at the end. -/
theorem Along.keeping {P : History Op Ans ε → Prop} {post : History Op Ans ε → Except ε α → Prop}
    {p : Prog Op Ans ε α} (hstep : ∀ h o n r, P h → Q h o → P (h ++ [(n, ⟨o, r⟩)])) (hstart : P h)
    (hp : Along Q post h p) :
    Along (fun h o => P h ∧ Q h o) (fun h r => P h ∧ post h r) h p := by
  induction p generalizing h with
  | ret a => exact (along_ret a).mpr ⟨hstart, (along_ret a).mp hp⟩
  | raise e => exact (along_raise e).mpr ⟨hstart, (along_raise e).mp hp⟩
  | call o k ih =>
    rw [along_call] at hp ⊢
    exact ⟨⟨hstart, hp.1⟩, fun n r => ih r (hstep _ _ _ _ hstart hp.1) (hp.2 n r)⟩

/-- The history of a run extends the one it started with. -/
theorem Along.extends {post : History Op Ans ε → Except ε α → Prop} {p : Prog Op Ans ε α}
    (hp : Along Q post h p) : Along Q (fun h' r => h <+: h' ∧ post h' r) h p := by
  have hkeep := hp.keeping (P := fun h' => h <+: h')
    (fun h' o n r hh _ => hh.trans (List.prefix_append _ _)) (List.prefix_refl h)
  exact hkeep.mono (fun _ _ hq => hq.2) fun _ _ hr => hr

/-- So does the history of each of its calls. -/
theorem Along.extends_calls {post : History Op Ans ε → Except ε α → Prop} {p : Prog Op Ans ε α}
    (hp : Along Q post h p) : Along (fun h' o => h <+: h' ∧ Q h' o) post h p := by
  have hkeep := hp.keeping (P := fun h' => h <+: h')
    (fun h' o n r hh _ => hh.trans (List.prefix_append _ _)) (List.prefix_refl h)
  exact hkeep.mono (fun _ _ hq => hq) fun _ _ hr => hr.2

theorem Along.bind {mid : History Op Ans ε → Except ε α → Prop}
    {post : History Op Ans ε → Except ε β → Prop} {p : Prog Op Ans ε α}
    {f : α → Prog Op Ans ε β} (hp : Along Q mid h p)
    (hok : ∀ h' a, h <+: h' → mid h' (.ok a) → Along Q post h' (f a))
    (herror : ∀ h' e, h <+: h' → mid h' (.error e) → post h' (.error e)) :
    Along Q post h (p >>= f) := by
  rw [bind_def, along_attempt]
  refine hp.extends.mono (fun _ _ hq => hq) ?_
  rintro h' (e | a) ⟨hh, hm⟩
  · exact (along_raise e).mpr (herror h' e hh hm)
  · exact hok h' a hh hm

theorem Along.attempt {mid : History Op Ans ε → Except ε α → Prop}
    {post : History Op Ans ε → Except ε β → Prop} {p : Prog Op Ans ε α}
    {f : Except ε α → Prog Op Ans ε β} (hp : Along Q mid h p)
    (hf : ∀ h' r, h <+: h' → mid h' r → Along Q post h' (f r)) :
    Along Q post h (p.attempt f) := by
  rw [along_attempt]
  exact hp.extends.mono (fun _ _ hq => hq) fun h' r hm => hf h' r hm.1 hm.2

theorem Along.tryExcept {mid post : History Op Ans ε → Except ε α → Prop} {p : Prog Op Ans ε α}
    {handler : ε → Prog Op Ans ε α} (hp : Along Q mid h p)
    (hok : ∀ h' a, h <+: h' → mid h' (.ok a) → post h' (.ok a))
    (herror : ∀ h' e, h <+: h' → mid h' (.error e) → Along Q post h' (handler e)) :
    Along Q post h (p.tryExcept handler) := by
  refine hp.attempt ?_
  rintro h' (e | a) hh hm
  · exact herror h' e hh hm
  · exact (along_ret a).mpr (hok h' a hh hm)

/-- A handler that keeps the postcondition. -/
theorem Along.catch {post : History Op Ans ε → Except ε α → Prop} {p : Prog Op Ans ε α}
    {handler : ε → Prog Op Ans ε α} (hp : Along Q post h p)
    (herror : ∀ h' e, h <+: h' → post h' (.error e) → Along Q post h' (handler e)) :
    Along Q post h (p.tryExcept handler) := hp.tryExcept (fun _ _ _ hm => hm) herror

theorem Along.perform {o : Op} {post : History Op Ans ε → Except ε (Ans o) → Prop} (hq : Q h o)
    (hpost : ∀ n r, post (h ++ [(n, ⟨o, r⟩)]) r) : Along Q post h (perform o) :=
  (along_perform o).mpr ⟨hq, hpost⟩

/-- A call answers what the history records. -/
theorem along_answered {o : Op} (hq : Q h o) :
    Along Q (fun h' r => ∀ a, r = .ok a → Answered h' o a) h (Prog.perform o) := by
  refine .perform hq ?_
  rintro n r a rfl
  exact answered_append

/-! ## Programs whose outcome does not matter -/

/-- Every call of `p` satisfies `Q`. -/
abbrev Safe (Q : History Op Ans ε → Op → Prop) (h : History Op Ans ε) (p : Prog Op Ans ε α) :
    Prop := Along Q (fun _ _ => True) h p

theorem Along.safe {post : History Op Ans ε → Except ε α → Prop} {p : Prog Op Ans ε α}
    (hp : Along Q post h p) : Safe Q h p := hp.mono (fun _ _ hq => hq) fun _ _ _ => trivial

theorem Along.bind_safe {mid : History Op Ans ε → Except ε α → Prop} {p : Prog Op Ans ε α}
    {f : α → Prog Op Ans ε β} (hp : Along Q mid h p)
    (hok : ∀ h' a, h <+: h' → mid h' (.ok a) → Safe Q h' (f a)) : Safe Q h (p >>= f) :=
  hp.bind hok fun _ _ _ _ => trivial

theorem Safe.bind {p : Prog Op Ans ε α} {f : α → Prog Op Ans ε β} (hp : Safe Q h p)
    (hok : ∀ h' a, h <+: h' → Safe Q h' (f a)) : Safe Q h (p >>= f) :=
  hp.bind_safe fun h' a hh _ => hok h' a hh

theorem safe_ret (a : α) : Safe Q h (ret a : Prog Op Ans ε α) := (along_ret a).mpr trivial

theorem safe_pure (a : α) : Safe Q h (pure a : Prog Op Ans ε α) := (along_pure a).mpr trivial

theorem safe_raise (e : ε) : Safe Q h (raise e : Prog Op Ans ε α) := (along_raise e).mpr trivial

theorem safe_ofExcept (r : Except ε α) : Safe Q h (ofExcept r : Prog Op Ans ε α) :=
  (along_ofExcept r).mpr trivial

theorem safe_perform {o : Op} (hq : Q h o) : Safe Q h (perform o) :=
  .perform hq fun _ _ => trivial

/-- A computation without calls in front of a program. -/
theorem Along.ofExcept_bind {post : History Op Ans ε → Except ε β → Prop} {r : Except ε α}
    {f : α → Prog Op Ans ε β} (hok : ∀ a, r = .ok a → Along Q post h (f a))
    (herror : ∀ e, r = .error e → post h (.error e)) : Along Q post h (ofExcept r >>= f) := by
  cases r with
  | error e => exact (along_raise e).mpr (herror e rfl)
  | ok a => exact hok a rfl

theorem safe_ofExcept_bind {r : Except ε α} {f : α → Prog Op Ans ε β}
    (hf : ∀ a, r = .ok a → Safe Q h (f a)) : Safe Q h (ofExcept r >>= f) :=
  .ofExcept_bind hf fun _ _ => trivial

/-- One call in front of a program. -/
theorem safe_perform_bind {o : Op} {f : Ans o → Prog Op Ans ε α} (hq : Q h o)
    (hf : ∀ n a, Safe Q (h ++ [(n, ⟨o, .ok a⟩)]) (f a)) : Safe Q h (Prog.perform o >>= f) := by
  have hp : Along Q (fun h' r => ∃ n, h' = h ++ [(n, ⟨o, r⟩)]) h (Prog.perform o) :=
    .perform hq fun n r => ⟨n, rfl⟩
  refine hp.bind_safe ?_
  rintro h' a - ⟨n, rfl⟩
  exact hf n a

theorem Safe.tryExcept {p : Prog Op Ans ε α} {handler : ε → Prog Op Ans ε α} (hp : Safe Q h p)
    (herror : ∀ h' e, h <+: h' → Safe Q h' (handler e)) : Safe Q h (p.tryExcept handler) :=
  Along.tryExcept hp (fun _ _ _ _ => trivial) fun h' e hh _ => herror h' e hh

theorem Safe.attempt {p : Prog Op Ans ε α} {f : Except ε α → Prog Op Ans ε β} (hp : Safe Q h p)
    (hf : ∀ h' r, h <+: h' → Safe Q h' (f r)) : Safe Q h (p.attempt f) :=
  Along.attempt hp fun h' r hh _ => hf h' r hh

/-- A watched program ends, with the outcome of the program, where the program ends. -/
theorem Along.watch {bad : Op → ε → Bool} {seen : Bool} {mid : History Op Ans ε → Except ε α → Prop}
    {p : Prog Op Ans ε α} (hp : Along Q mid h p) :
    Along Q (fun h' r => ∃ seen' r', r = .ok (seen', r') ∧ mid h' r') h (p.watch bad seen) := by
  induction p generalizing h seen with
  | ret a =>
    rw [along_ret] at hp
    exact (along_ret _).mpr ⟨seen, .ok a, rfl, hp⟩
  | raise e =>
    rw [along_raise] at hp
    exact (along_ret _).mpr ⟨seen, .error e, rfl, hp⟩
  | call o k ih =>
    rw [along_call] at hp
    rw [Prog.watch, along_call]
    exact ⟨hp.1, fun n r => ih r (hp.2 n r)⟩

theorem Along.watch_bind {bad : Op → ε → Bool} {seen : Bool}
    {mid : History Op Ans ε → Except ε α → Prop} {post : History Op Ans ε → Except ε β → Prop}
    {p : Prog Op Ans ε α} {f : Bool × Except ε α → Prog Op Ans ε β} (hp : Along Q mid h p)
    (hf : ∀ h' seen' r, h <+: h' → mid h' r → Along Q post h' (f (seen', r))) :
    Along Q post h (p.watch bad seen >>= f) := by
  refine hp.watch.bind ?_ ?_
  · rintro h₁ a hh ⟨seen', r, hr, hmid⟩
    obtain rfl := Except.ok.inj hr
    exact hf h₁ seen' r hh hmid
  · rintro h₁ e hh ⟨seen', r, hr, hmid⟩
    cases hr

/-- The rest of a program after a part that is watched from the start: what was seen is read
off the history. -/
theorem Along.watch_seen_bind {bad : Op → ε → Bool} {seen : Bool}
    (hseen : seen = h.any fun x => failedWith bad x.2.1 x.2.2)
    {mid : History Op Ans ε → Except ε α → Prop} {post : History Op Ans ε → Except ε β → Prop}
    {p : Prog Op Ans ε α} {f : Bool × Except ε α → Prog Op Ans ε β} (hp : Along Q mid h p)
    (hf : ∀ h' r, h <+: h' → mid h' r →
      Along Q post h' (f (h'.any fun x => failedWith bad x.2.1 x.2.2, r))) :
    Along Q post h (p.watch bad seen >>= f) := by
  rw [bind_def, along_attempt, along_watch hseen]
  exact hp.extends.mono (fun _ _ hq => hq) fun h' r hm => hf h' r hm.1 hm.2

theorem Safe.watch_bind {bad : Op → ε → Bool} {seen : Bool} {p : Prog Op Ans ε α}
    {f : Bool × Except ε α → Prog Op Ans ε β} (hp : Safe Q h p)
    (hf : ∀ h' seen' r, h <+: h' → Safe Q h' (f (seen', r))) :
    Safe Q h (p.watch bad seen >>= f) :=
  Along.watch_bind hp fun h' seen' r hh _ => hf h' seen' r hh

/-! ## Programs whose calls do not matter -/

theorem along_true (p : Prog Op Ans ε α) : Along (fun _ _ => True) (fun _ _ => True) h p := by
  induction p generalizing h with
  | ret a => exact safe_ret a
  | raise e => exact safe_raise e
  | call o k ih =>
    rw [along_call]
    exact ⟨trivial, fun n r => ih r⟩

/-- What every longer history satisfies holds at the end. -/
theorem along_kept {post : History Op Ans ε → Except ε α → Prop}
    (hpost : ∀ h' r, h <+: h' → post h' r) (p : Prog Op Ans ε α) :
    Along (fun _ _ => True) post h p :=
  (along_true p).extends.mono (fun _ _ hq => hq) fun h' r hh => hpost h' r hh.1

/-- What a growing history keeps still holds at the end. -/
theorem along_of_mono {P : History Op Ans ε → Prop} (hP : ∀ h₁ h₂, P h₁ → P (h₁ ++ h₂)) (hh : P h)
    (p : Prog Op Ans ε α) : Along (fun _ _ => True) (fun h' _ => P h') h p := by
  refine along_kept (fun h' r hgrown => ?_) p
  obtain ⟨h₂, rfl⟩ := hgrown
  exact hP h h₂ hh

theorem along_perform_true {o : Op} {post : History Op Ans ε → Except ε (Ans o) → Prop}
    (hpost : ∀ n r, post (h ++ [(n, ⟨o, r⟩)]) r) :
    Along (fun _ _ => True) post h (Prog.perform o) := .perform trivial hpost

/-! ## Loops -/

theorem safe_forEach {f : β → Prog Op Ans ε Unit} {xs : List β}
    (hf : ∀ x ∈ xs, ∀ h', h <+: h' → Safe Q h' (f x)) : Safe Q h (forEach f xs) := by
  induction xs generalizing h with
  | nil => exact safe_pure _
  | cons x xs ih =>
    refine Safe.bind (hf x (by simp) h (List.prefix_refl h)) fun h' _ hh => ?_
    exact ih fun y hy h'' hh' => hf y (by simp [hy]) h'' (hh.trans hh')

/-- What a growing history keeps holds of every collected result. -/
theorem along_collect {f : β → Prog Op Ans ε (Option γ)} {xs : List β}
    {P : History Op Ans ε → γ → Prop} (hP : ∀ h₁ h₂ y, h₁ <+: h₂ → P h₁ y → P h₂ y)
    (hf : ∀ x ∈ xs, ∀ h', h <+: h' →
      Along Q (fun h'' r => ∀ y, r = .ok (some y) → P h'' y) h' (f x)) :
    Along Q (fun h'' r => ∀ ys, r = .ok ys → ∀ y ∈ ys, P h'' y) h (collect f xs) := by
  induction xs generalizing h with
  | nil =>
    rw [collect, along_pure]
    rintro ys ⟨⟩ y hy
    cases hy
  | cons x xs ih =>
    refine (hf x (by simp) h (List.prefix_refl h)).bind ?_ (by rintro _ _ _ _ _ ⟨⟩)
    intro h' y hh hy
    have hrest := ih fun z hz h'' hh' => hf z (by simp [hz]) h'' (hh.trans hh')
    refine hrest.bind ?_ (by rintro _ _ _ _ _ ⟨⟩)
    intro h'' ys hh' hys
    rw [along_pure]
    rintro zs ⟨⟩ z hz
    rcases List.mem_append.mp hz with hz | hz
    · exact hP h' h'' z hh' (hy z (by rw [Option.mem_toList.mp hz]))
    · exact hys ys rfl z hz

/-- What a growing history keeps of every round holds of it at the end, and the results are
those of the rounds. -/
theorem along_collect_each {f : β → Prog Op Ans ε (Option γ)} {xs : List β}
    {P : History Op Ans ε → β → Option γ → Prop}
    (hP : ∀ h₁ h₂ x y, h₁ <+: h₂ → P h₁ x y → P h₂ x y)
    (hf : ∀ x ∈ xs, ∀ h', Along Q (fun h'' r => ∀ y, r = .ok y → P h'' x y) h' (f x)) :
    Along Q (fun h' r => ∀ ys, r = .ok ys → ∀ x ∈ xs, ∃ y, P h' x y ∧ ∀ z ∈ y, z ∈ ys) h
      (collect f xs) := by
  induction xs generalizing h with
  | nil =>
    rw [collect, along_pure]
    intro ys _ x hx
    cases hx
  | cons x xs ih =>
    refine (hf x (by simp) h).bind ?_ (by rintro _ _ _ _ _ ⟨⟩)
    intro h' y _ hy
    have hrest : Along Q (fun h'' r => ∀ ys, r = .ok ys → ∀ x ∈ xs, ∃ y, P h'' x y ∧ ∀ z ∈ y, z ∈ ys)
        h' (collect f xs) := ih fun x hx => hf x (by simp [hx])
    refine hrest.bind ?_ (by rintro _ _ _ _ _ ⟨⟩)
    intro h'' ys hh hys
    rw [along_pure]
    intro zs hzs x' hx'
    obtain rfl := Except.ok.inj hzs
    rcases List.mem_cons.mp hx' with rfl | hx'
    · exact ⟨y, hP h' h'' _ y hh (hy y rfl), fun z hz => by simp [Option.mem_def.mp hz]⟩
    · obtain ⟨y', hy', hmem⟩ := hys ys rfl x' hx'
      exact ⟨y', hy', fun z hz => List.mem_append_right _ (hmem z hz)⟩

/-- An invariant of a loop, about what is left of it. -/
theorem along_forEach {f : β → Prog Op Ans ε Unit} {I : List β → History Op Ans ε → Prop}
    (hf : ∀ x xs h', I (x :: xs) h' → Along Q (fun h'' r => r = .ok () → I xs h'') h' (f x))
    {xs : List β} (hI : I xs h) :
    Along Q (fun h' r => r = .ok () → I [] h') h (forEach f xs) := by
  induction xs generalizing h with
  | nil =>
    rw [forEach, along_pure]
    exact fun _ => hI
  | cons x xs ih =>
    refine (hf x xs h hI).bind ?_ (by rintro _ _ _ _ ⟨⟩)
    intro h' _ _ hrest
    exact ih (hrest rfl)

/-- There are at most as many results as rounds. -/
theorem along_collect_length {f : β → Prog Op Ans ε (Option γ)} (xs : List β) :
    Along (fun _ _ => True) (fun _ r => ∀ ys, r = .ok ys → ys.length ≤ xs.length) h
      (collect f xs) := by
  induction xs generalizing h with
  | nil =>
    rw [collect, along_pure]
    rintro ys ⟨⟩
    simp
  | cons x xs ih =>
    refine (along_true (f x)).bind ?_ (by rintro _ _ _ _ _ ⟨⟩)
    intro h' y _ _
    refine ih.bind ?_ (by rintro _ _ _ _ _ ⟨⟩)
    intro h'' ys _ hlength
    rw [along_pure]
    rintro zs ⟨⟩
    have hrest := hlength ys rfl
    have hfirst : y.toList.length ≤ 1 := by cases y <;> simp
    rw [List.length_append, List.length_cons]
    omega

/-- Every result comes from a round, and their keys stand in the order of the rounds. -/
theorem along_collect_from {f : β → Prog Op Ans ε (Option γ)} {R : β → γ → Prop} {κ : Type}
    {k : β → κ} {g : γ → κ} {xs : List β} (hkey : ∀ x y, R x y → g y = k x)
    (hf : ∀ x ∈ xs, ∀ h', Along (fun _ _ => True) (fun _ r => ∀ y, r = .ok (some y) → R x y) h' (f x)) :
    Along (fun _ _ => True) (fun _ r => ∀ ys, r = .ok ys →
      (ys.map g).Sublist (xs.map k) ∧ ∀ y ∈ ys, ∃ x ∈ xs, R x y) h (collect f xs) := by
  induction xs generalizing h with
  | nil =>
    rw [collect, along_pure]
    intro ys hys
    obtain rfl := Except.ok.inj hys
    simp
  | cons x xs ih =>
    refine (hf x List.mem_cons_self h).bind ?_ (by rintro _ _ _ _ _ ⟨⟩)
    intro h' y _ hy
    refine (ih fun z hz => hf z (List.mem_cons_of_mem _ hz)).bind ?_ (by rintro _ _ _ _ _ ⟨⟩)
    intro h'' ys _ hys
    rw [along_pure]
    intro zs hzs
    obtain rfl := Except.ok.inj hzs
    obtain ⟨hsub, hfrom⟩ := hys ys rfl
    have hrest : ∀ y ∈ ys, ∃ x' ∈ x :: xs, R x' y := by
      intro y hy
      obtain ⟨x', hx', hr⟩ := hfrom y hy
      exact ⟨x', List.mem_cons_of_mem _ hx', hr⟩
    cases y with
    | none => exact ⟨hsub.cons (k x), hrest⟩
    | some y =>
      have hr := hy y rfl
      constructor
      · simp only [Option.toList_some, List.singleton_append, List.map_cons]
        rw [hkey x y hr]
        exact hsub.cons_cons (k x)
      · intro z hz
        rw [Option.toList_some, List.singleton_append, List.mem_cons] at hz
        obtain rfl | hz := hz
        · exact ⟨x, List.mem_cons_self, hr⟩
        · exact hrest z hz

/-! ## Two conditions at once -/

theorem Along.and {Q' : History Op Ans ε → Op → Prop}
    {post post' : History Op Ans ε → Except ε α → Prop} {p : Prog Op Ans ε α}
    (hp : Along Q post h p) (hp' : Along Q' post' h p) :
    Along (fun h o => Q h o ∧ Q' h o) (fun h r => post h r ∧ post' h r) h p := by
  induction p generalizing h with
  | ret a => exact (along_ret a).mpr ⟨(along_ret a).mp hp, (along_ret a).mp hp'⟩
  | raise e => exact (along_raise e).mpr ⟨(along_raise e).mp hp, (along_raise e).mp hp'⟩
  | call o k ih =>
    rw [along_call] at hp hp' ⊢
    exact ⟨⟨hp.1, hp'.1⟩, fun n r => ih r (hp.2 n r) (hp'.2 n r)⟩

/-- A second postcondition, whatever the calls. -/
theorem Along.and_post {post post' : History Op Ans ε → Except ε α → Prop} {p : Prog Op Ans ε α}
    (hp : Along Q post h p) (hp' : Along (fun _ _ => True) post' h p) :
    Along Q (fun h r => post h r ∧ post' h r) h p :=
  (hp.and hp').mono (fun _ _ hq => hq.1) fun _ _ hr => hr

/-! ## Recorded runs -/

/-- When the calls of `p` satisfy `P`, those it has added to the history do. -/
theorem Along.entries {P : Op → Prop} {post : History Op Ans ε → Except ε α → Prop}
    {p : Prog Op Ans ε α} (hp : Along Q post h p) (hP : ∀ h o, Q h o → P o) :
    Along (fun h' o => (∃ h₂, h' = h ++ h₂ ∧ ∀ x ∈ h₂, P x.2.1) ∧ Q h' o)
      (fun h' r => (∃ h₂, h' = h ++ h₂ ∧ ∀ x ∈ h₂, P x.2.1) ∧ post h' r) h p := by
  refine hp.keeping ?_ ⟨[], by simp⟩
  rintro h' o n r ⟨h₂, rfl, hall⟩ hq
  refine ⟨h₂ ++ [(n, ⟨o, r⟩)], by rw [List.append_assoc], fun x hx => ?_⟩
  rcases List.mem_append.mp hx with hx | hx
  · exact hall x hx
  · rw [List.mem_singleton.mp hx]
    exact hP _ _ hq

section Replay
variable [DecidableEq Op]

/-- What is left of `p` and of the record when the calls of `p` are answered as recorded. -/
def replay : Prog Op Ans ε α → History Op Ans ε → Prog Op Ans ε α × History Op Ans ε
  | call o k, (n, ⟨o', r⟩) :: h =>
    if e : o' = o then replay (k (e ▸ r)) h else (call o k, (n, ⟨o', r⟩) :: h)
  | p, h => (p, h)

@[simp] theorem replay_nil (p : Prog Op Ans ε α) : replay p [] = (p, []) := by
  cases p <;> rfl

@[simp] theorem replay_ofExcept (r : Except ε α) (h : History Op Ans ε) :
    replay (ofExcept r : Prog Op Ans ε α) h = (ofExcept r, h) := by
  cases r <;> cases h <;> rfl

@[simp] theorem replay_call (o : Op) (k : Except ε (Ans o) → Prog Op Ans ε α) (n : ℕ)
    (r : Except ε (Ans o)) (h : History Op Ans ε) :
    replay (call o k) ((n, ⟨o, r⟩) :: h) = replay (k r) h := by
  rw [replay, dif_pos rfl]

/-- A program that has come to an end leaves alone what is recorded behind it. -/
theorem replay_append {p : Prog Op Ans ε α} {r : Except ε α} {h₁ h' : History Op Ans ε}
    (hr : replay p h₁ = (ofExcept r, h')) (h₂ : History Op Ans ε) :
    replay p (h₁ ++ h₂) = (ofExcept r, h' ++ h₂) := by
  have hend : ∀ {q : Prog Op Ans ε α} {h : History Op Ans ε},
      (q, h) = ((ofExcept r : Prog Op Ans ε α), h') → replay q (h ++ h₂) = (ofExcept r, h' ++ h₂) := by
    intro q h hq
    obtain ⟨rfl, rfl⟩ := Prod.mk.inj hq
    rw [replay_ofExcept]
  induction h₁ generalizing p with
  | nil =>
    rw [replay_nil] at hr
    exact hend hr
  | cons x h₁ ih =>
    obtain ⟨n, o', a⟩ := x
    cases p with
    | ret b => exact hend hr
    | raise e => exact hend hr
    | call o k =>
      rw [replay] at hr
      split at hr
      · next hsame =>
        subst hsame
        rw [List.cons_append, replay_call]
        exact ih hr
      · exact hend hr

/-- A program comes to its outcome on the calls it adds to the history. -/
theorem Along.replayed {post : History Op Ans ε → Except ε α → Prop} {p : Prog Op Ans ε α}
    (hp : Along Q post h p) :
    Along Q (fun h' r => (∃ h₂, h' = h ++ h₂ ∧ replay p h₂ = (ofExcept r, [])) ∧ post h' r) h p := by
  induction p generalizing h with
  | ret a => exact (along_ret a).mpr ⟨⟨[], by simp [ofExcept]⟩, (along_ret a).mp hp⟩
  | raise e => exact (along_raise e).mpr ⟨⟨[], by simp [ofExcept]⟩, (along_raise e).mp hp⟩
  | call o k ih =>
    rw [along_call] at hp ⊢
    refine ⟨hp.1, fun n r => (ih r (hp.2 n r)).mono (fun _ _ hq => hq) ?_⟩
    intro h' r' hpost
    obtain ⟨⟨h₂, hh, hrun⟩, hpost⟩ := hpost
    exact ⟨⟨(n, ⟨o, r⟩) :: h₂, by simp [hh], by simpa using hrun⟩, hpost⟩

/-- `h` records calls of `p`, up to its end or to where it was cut off. -/
def Records (p : Prog Op Ans ε α) (h : History Op Ans ε) : Prop := (replay p h).2 = []

/-- Every recorded call was permitted. -/
theorem Along.recorded {post : History Op Ans ε → Except ε α → Prop} {p : Prog Op Ans ε α}
    (hp : Along Q post h p) {h₁ h₂ : History Op Ans ε} {x : ℕ × (o : Op) × Except ε (Ans o)}
    (hr : Records p (h₁ ++ x :: h₂)) : Q (h ++ h₁) x.2.1 := by
  induction h₁ generalizing h p with
  | nil =>
    obtain ⟨n, o', a⟩ := x
    cases p with
    | ret b => cases hr
    | raise e => cases hr
    | call o k =>
      rw [along_call] at hp
      by_cases hsame : o' = o
      · subst hsame
        simpa using hp.1
      · simp [Records, replay, hsame] at hr
  | cons y h₁ ih =>
    obtain ⟨n, o', a⟩ := y
    cases p with
    | ret b => cases hr
    | raise e => cases hr
    | call o k =>
      rw [along_call] at hp
      by_cases hsame : o' = o
      · subst hsame
        have hrest : Records (k a) (h₁ ++ x :: h₂) := by
          rw [Records, List.cons_append, replay_call] at hr
          exact hr
        simpa using ih (hp.2 n a) hrest
      · simp [Records, replay, hsame] at hr

end Replay

/-! ## Invariants of a lone run -/

section Keeps
variable {σ : Type} {H : Handler Op Ans ε σ} {I : σ → Prop}

/-- A lone run of `p` keeps `I`, whatever it comes to. -/
def Keeps (H : Handler Op Ans ε σ) (I : σ → Prop) (p : Prog Op Ans ε α) : Prop :=
  ∀ s, I s → I (run H p s).2

theorem keeps_pure (a : α) : Keeps H I (pure a : Prog Op Ans ε α) := fun _ hs => hs

theorem keeps_raise (e : ε) : Keeps H I (raise e : Prog Op Ans ε α) := fun _ hs => hs

theorem keeps_perform {o : Op} (ho : ∀ s, I s → I (H o s).2) :
    Keeps H I (perform o : Prog Op Ans ε (Ans o)) := by
  intro s hs
  rw [run_perform]
  exact ho s hs

theorem Keeps.attempt {p : Prog Op Ans ε α} {f : Except ε α → Prog Op Ans ε β}
    (hp : Keeps H I p) (hf : ∀ r, Keeps H I (f r)) : Keeps H I (p.attempt f) := by
  intro s hs
  rw [run_attempt]
  exact hf _ _ (hp s hs)

theorem Keeps.bind {p : Prog Op Ans ε α} {f : α → Prog Op Ans ε β} (hp : Keeps H I p)
    (hf : ∀ a, Keeps H I (f a)) : Keeps H I (p >>= f) := by
  refine hp.attempt fun r => ?_
  cases r with
  | error e => exact keeps_raise e
  | ok a => exact hf a

theorem Keeps.tryExcept {p : Prog Op Ans ε α} {handler : ε → Prog Op Ans ε α} (hp : Keeps H I p)
    (hh : ∀ e, Keeps H I (handler e)) : Keeps H I (p.tryExcept handler) := by
  refine hp.attempt fun r => ?_
  cases r with
  | error e => exact hh e
  | ok a => exact keeps_pure a

/-- What follows a program that always raises does not run. -/
theorem keeps_bind_of_raises {p : Prog Op Ans ε α} {f : α → Prog Op Ans ε β}
    (hp : ∀ s, I s → (∃ e, (run H p s).1 = .error e) ∧ I (run H p s).2) : Keeps H I (p >>= f) := by
  intro s hs
  obtain ⟨⟨e, he⟩, hI⟩ := hp s hs
  rw [run_bind]
  cases hrun : run H p s with
  | mk r s' =>
    rw [hrun] at he hI
    simp only at he
    subst he
    exact hI

end Keeps

/-! ## Lone runs that return -/

section Quiet
variable {σ τ : Type} {H : Handler Op Ans ε σ} {f : σ → τ}

/-- A lone run of `p` returns and leaves what `f` shows as it was. -/
def Quiet (H : Handler Op Ans ε σ) (f : σ → τ) (p : Prog Op Ans ε α) : Prop :=
  ∀ s, ∃ a s', run H p s = (.ok a, s') ∧ f s' = f s

theorem quiet_pure (a : α) : Quiet H f (pure a : Prog Op Ans ε α) := fun s => ⟨a, s, rfl, rfl⟩

theorem quiet_perform {o : Op} (ho : ∀ s, ∃ a s', H o s = (.ok a, s') ∧ f s' = f s) :
    Quiet H f (perform o : Prog Op Ans ε (Ans o)) := by
  intro s
  rw [run_perform]
  exact ho s

theorem Quiet.bind {p : Prog Op Ans ε α} {g : α → Prog Op Ans ε β} (hp : Quiet H f p)
    (hg : ∀ a, Quiet H f (g a)) : Quiet H f (p >>= g) := by
  intro s
  obtain ⟨a, s₁, hrun, hs₁⟩ := hp s
  obtain ⟨b, s₂, hrun', hs₂⟩ := hg a s₁
  exact ⟨b, s₂, by rw [run_bind, hrun, ← hrun'], hs₂.trans hs₁⟩

theorem Quiet.tryExcept {p : Prog Op Ans ε α} {handler : ε → Prog Op Ans ε α}
    (hp : Quiet H f p) : Quiet H f (p.tryExcept handler) := by
  intro s
  obtain ⟨a, s', hrun, hs'⟩ := hp s
  exact ⟨a, s', by rw [run_tryExcept, hrun], hs'⟩

end Quiet

end Autotrading.Prog
