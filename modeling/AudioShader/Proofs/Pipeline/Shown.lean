/-
# What the stages of a tick are drawn with

A stage that is drawn gives values to uniforms of its program, those of its
bindings first and those from outside behind them, and is recorded with what its
program holds then. If it fails it has given some of these values and is not
recorded. So what a program holds after any ticks is what it was made with,
filled with values that ticks give, and a tick that succeeds adds one record for
each stage, in order.

Key definitions: `ShaderStage.assignments`, `Filling`, `ShaderStage.Shows`,
`Shown`, `drawnBefore`, `Painted`.
Key theorems: `ends_drawStage_drawn`, `ends_drawStages_shown`, `ends_renderTick_shown`.
-/
import AudioShader.Proofs.Graphics.Stores
import AudioShader.Proofs.Pipeline.Lifetime

namespace AudioShader

open AudioShader.Action (Ends Stays)

/-! ### The values of a stage -/

/-- What a tick gives to a uniform; nothing if it has no texture for audio. -/
def UniformBinding.given? (x : UniformBinding) (t : TickInput) (previous : Option TextureId) :
    Option UniformValue :=
  match x.source.kind with
  | .audio _ => x.texture.map .texture
  | kind => some (t.value previous kind)

def UniformBinding.assignment? (x : UniformBinding) (t : TickInput) (previous : Option TextureId) :
    Option Assignment :=
  match x.given? t previous, x.location with
  | some value, some location => some ⟨location, value⟩
  | _, _ => none

/-- What a tick gives to a uniform that is bound from outside. -/
def TickInput.external? (t : TickInput) (e : Nat × UniformLocation) : Option Assignment :=
  (t.externals[e.1]?).map fun value => ⟨e.2, value⟩

/-- The values that a stage is drawn with, in the order in which they are given. -/
def ShaderStage.assignments (st : ShaderStage) (t : TickInput) (previous : Option TextureId) :
    List Assignment :=
  st.bindings.filterMap (·.assignment? t previous) ++ st.externals.filterMap t.external?

/-- The values of a stage are those of its bindings and those from outside. -/
theorem ShaderStage.mem_assignments_iff {st : ShaderStage} {t : TickInput}
    {previous : Option TextureId} {a : Assignment} : a ∈ st.assignments t previous ↔
      (∃ x ∈ st.bindings, x.given? t previous = some a.value ∧ x.location = some a.location) ∨
        ∃ e ∈ st.externals, t.externals[e.1]? = some a.value ∧ e.2 = a.location := by
  rw [assignments, List.mem_append, List.mem_filterMap, List.mem_filterMap]
  refine or_congr (exists_congr fun x => and_congr_right fun _ => ?_)
    (exists_congr fun e => and_congr_right fun _ => ?_)
  · unfold UniformBinding.assignment?
    cases x.given? t previous with
    | none => simp
    | some v =>
      cases x.location with
      | none => simp
      | some l => simp [Assignment.ext_iff, and_comm]
  · rw [TickInput.external?]
    cases t.externals[e.1]? with
    | none => simp
    | some v => simp [Assignment.ext_iff, and_comm]

/-! ### One stage -/

/-- A stage is being drawn, from a device `b` on, and certain values are given. -/
structure Filling (b : HeadlessBackend) (st : ShaderStage) (as : List Assignment)
    (c : HeadlessBackend) : Prop extends HeadlessBackend.Refilled st.program as b c where
  draws : c.draws = b.draws
  bound : c.bound = st.target
  current : c.current = some st.program
  takes : ∀ a ∈ as, ∃ p, b.programs.get? st.program = some p ∧ p.Takes a

/-- A stage has been drawn, from a device `b` on, with certain values. -/
structure ShaderStage.Drawn (st : ShaderStage) (as : List Assignment) (b c : HeadlessBackend) :
    Prop extends HeadlessBackend.Refilled st.program as b c where
  record : ∃ p, b.programs.get? st.program = some p ∧ (∀ a ∈ as, p.Takes a) ∧
    c.draws = b.draws.push ((p.fill as).record st.program st.target)

section Stage

variable {t : TickInput} {previous : Option TextureId} {b : HeadlessBackend} {st : ShaderStage}
  {as : List Assignment}

theorem Filling.unseen (c c' : HeadlessBackend) (hc : c.Unseen c') (h : Filling b st as c) :
    Filling b st as c' where
  toRefilled := h.toRefilled.congr hc.programs hc.targets
  draws := hc.draws.trans h.draws
  bound := hc.bound.trans h.bound
  current := hc.current.trans h.current
  takes := h.takes

theorem Filling.store {c : HeadlessBackend} (h : Filling b st as c) {p : Program}
    (hp : c.programs.get? st.program = some p) {a : Assignment} (ha : p.Takes a) :
    Filling b st (as ++ [a]) { c with programs := c.programs.put st.program (p.store a) } where
  toRefilled := h.toRefilled.store hp a
  draws := h.draws
  bound := h.bound
  current := h.current
  takes := by
    have hfilled := h.programs st.program
    rw [if_pos rfl, hp] at hfilled
    obtain ⟨q, hq, rfl⟩ := Option.map_eq_some_iff.1 hfilled.symm
    refine List.forall_mem_append.2 ⟨h.takes, fun a' ha' => ⟨q, hq, ?_⟩⟩
    rw [List.mem_singleton.1 ha']
    exact Program.takes_fill.1 ha

/-- A value that is stored is the next one that is given. -/
theorem ends_setUniform (ordinal : Nat) (l : UniformLocation) (v : UniformValue) :
    Ends (fun d => Filling b st as d.device) (onBackend ordinal (GraphicsBackend.setUniform l v))
      (fun _ d => Filling b st (as ++ [⟨l, v⟩]) d.device) fun _ d => Filling b st as d.device := by
  refine Ends.mapError (Ends.within fun d hd => ?_)
  refine (HeadlessBackend.ends_storeUniform d.device l v).weaken (fun _ h => h) ?_ ?_
  · intro _ c hc
    obtain ⟨id, p, hid, hp, htakes, rfl⟩ := hc
    cases hd.current.symm.trans hid
    exact hd.store hp htakes
  · intro _ c hc
    rw [hc]
    exact hd

/-- To make the value of a binding changes nothing that draws see. -/
theorem ends_given (ordinal : Nat) (x : UniformBinding) :
    Ends (fun d => Filling b st as d.device) (bindingValue? t ordinal previous x)
      (fun value? d => Filling b st as d.device ∧ value? = x.given? t previous)
      fun _ d => Filling b st as d.device := by
  unfold bindingValue?
  split
  · next channel hkind =>
    have hgiven : x.given? t previous = x.texture.map .texture := by
      rw [UniformBinding.given?, hkind]
    rw [hgiven]
    cases x.texture with
    | none => exact Ends.pure fun _ hd => ⟨hd, rfl⟩
    | some texture =>
      have hupload (input : List Float32) : Stays (fun d => Filling b st as d.device)
          (uploadAudio t ordinal x texture input) :=
        stays_uploadAudio (HeadlessBackend.stays_uploadAudio Filling.unseen)
          (HeadlessBackend.stays_runTail Filling.unseen) t ordinal x texture input
      dsimp only
      split
      · exact Ends.bind (hupload _) fun _ => Ends.pure fun _ hd => ⟨hd, rfl⟩
      · exact Ends.pure fun _ hd => ⟨hd, rfl⟩
  · next hkind =>
    refine Ends.pure fun _ hd => ⟨hd, ?_⟩
    unfold UniformBinding.given?
    split
    · next channel haudio => exact (hkind channel haudio).elim
    · rfl

theorem ends_fillBinding (ordinal : Nat) (x : UniformBinding) :
    Ends (fun d => Filling b st as d.device) (fillBinding t ordinal previous x)
      (fun _ d => Filling b st (as ++ (x.assignment? t previous).toList) d.device)
      fun _ d => Filling b st as d.device := by
  refine Ends.bind (ends_given ordinal x) fun value? => Ends.assume fun hvalue => ?_
  rw [hvalue, UniformBinding.assignment?]
  cases x.given? t previous with
  | none => exact Ends.pure fun _ hd => by simpa using hd
  | some value =>
    cases x.location with
    | none => exact Ends.pure fun _ hd => by simpa using hd
    | some l => exact ends_setUniform ordinal l value

theorem ends_fillExternal (ordinal : Nat) (e : Nat × UniformLocation) :
    Ends (fun d => Filling b st as d.device) (fillExternal t ordinal e)
      (fun _ d => Filling b st (as ++ (t.external? e).toList) d.device)
      fun _ d => Filling b st as d.device := by
  unfold fillExternal TickInput.external?
  cases t.externals[e.1]? with
  | none => exact Ends.pure fun _ hd => by simpa using hd
  | some value => exact ends_setUniform ordinal e.2 value

/-- Work that gives values one after the other has given some of them where it
fails. -/
theorem ends_forM_filling {β : Type} {f : β → Action (Drawing HeadlessBackend) RenderError Unit}
    {g : β → Option Assignment}
    (h : ∀ x as, Ends (fun d => Filling b st as d.device) (f x)
      (fun _ d => Filling b st (as ++ (g x).toList) d.device) fun _ d => Filling b st as d.device) :
    ∀ (xs : List β) (as : List Assignment), Ends (fun d => Filling b st as d.device) (xs.forM f)
      (fun _ d => Filling b st (as ++ xs.filterMap g) d.device)
      fun _ d => ∃ done, done ⊆ xs.filterMap g ∧ Filling b st (as ++ done) d.device
  | [], as => Ends.pure fun _ hd => by simpa using hd
  | x :: xs, as => by
    have hcons : (x :: xs).filterMap g = (g x).toList ++ xs.filterMap g := by
      cases hg : g x <;> simp [hg]
    rw [hcons]
    refine Ends.bind ((h x as).weaken (fun _ hd => hd) (fun _ _ hd => hd) fun _ d hd => ?_)
      fun _ => (ends_forM_filling h xs _).weaken (fun _ hd => hd) (fun _ d hd => ?_)
        fun _ d hd => ?_
    · exact ⟨[], List.nil_subset _, by simpa using hd⟩
    · rw [← List.append_assoc]
      exact hd
    · obtain ⟨done, hdone, hd⟩ := hd
      refine ⟨(g x).toList ++ done, ?_, by rw [← List.append_assoc]; exact hd⟩
      exact List.append_subset.2 ⟨List.subset_append_left .., List.subset_append_of_subset_right _ hdone⟩

/-- Draws go to the target of a stage, and nothing else that they see has changed. -/
structure Turned (b : HeadlessBackend) (st : ShaderStage) (c : HeadlessBackend) : Prop where
  programs : c.programs = b.programs
  targets : c.targets = b.targets
  draws : c.draws = b.draws
  bound : c.bound = st.target

/-- A stage was begun, from a device `b` on: some values were given and nothing
was recorded. -/
def ShaderStage.Begun (st : ShaderStage) (as : List Assignment) (b c : HeadlessBackend) : Prop :=
  ∃ given, given ⊆ as ∧ b.Refilled st.program given c ∧ c.draws = b.draws

theorem Turned.begun {c : HeadlessBackend} (h : Turned b st c) : st.Begun as b c :=
  ⟨[], List.nil_subset _, .of_eq h.programs h.targets, h.draws⟩

theorem Filling.begun {c : HeadlessBackend} {given : List Assignment} (h : Filling b st given c)
    (hgiven : given ⊆ as) : st.Begun as b c := ⟨given, hgiven, h.toRefilled, h.draws⟩

theorem ends_bindTarget_turned (as : List Assignment) :
    Ends (fun d => d.device = b) (onBackend st.ordinal (GraphicsBackend.bindTarget st.target))
      (fun _ d => Turned b st d.device) fun _ d => st.Begun as b d.device := by
  refine Ends.mapError (Ends.within fun d hd => ?_)
  rw [hd]
  refine (HeadlessBackend.ends_selectTarget b st.target).weaken (fun _ h => h) ?_ ?_
  · intro _ c hc
    rw [hc.2]
    exact ⟨rfl, rfl, rfl, rfl⟩
  · intro _ c hc
    rw [hc.1]
    exact ⟨[], List.nil_subset _, .of_eq rfl rfl, rfl⟩

theorem stays_clear_turned (color : Color) :
    Stays (fun d => Turned b st d.device) (onBackend st.ordinal (GraphicsBackend.clear color)) := by
  have hunseen (c c' : HeadlessBackend) (hc : c.Unseen c') (h : Turned b st c) : Turned b st c' :=
    ⟨hc.programs.trans h.programs, hc.targets.trans h.targets, hc.draws.trans h.draws,
      hc.bound.trans h.bound⟩
  exact stays_onBackend st.ordinal (HeadlessBackend.stays_clearTo hunseen color)

theorem ends_useProgram_filling (as : List Assignment) :
    Ends (fun d => Turned b st d.device)
      (onBackend st.ordinal (GraphicsBackend.useProgram st.program))
      (fun _ d => Filling b st [] d.device) fun _ d => st.Begun as b d.device := by
  refine Ends.mapError (Ends.within fun d hd => ?_)
  refine (HeadlessBackend.ends_selectProgram d.device st.program).weaken (fun _ h => h) ?_ ?_
  · intro _ c hc
    rw [hc.2]
    exact ⟨.of_eq hd.programs hd.targets, hd.draws, hd.bound, rfl, nofun⟩
  · intro _ c hc
    rw [hc.1]
    exact hd.begun

theorem ends_draw_drawn :
    Ends (fun d => Filling b st as d.device) (onBackend st.ordinal GraphicsBackend.draw)
      (fun _ d => st.Drawn as b d.device) fun _ d => st.Begun as b d.device := by
  refine Ends.mapError (Ends.within fun d hd => ?_)
  refine (HeadlessBackend.ends_recordDraw d.device).weaken (fun _ h => h) ?_ ?_
  · intro _ c hc
    obtain ⟨id, p, hid, hp, rfl⟩ := hc
    cases hd.current.symm.trans hid
    have hfilled := hd.programs st.program
    rw [if_pos rfl, hp] at hfilled
    obtain ⟨q, hq, rfl⟩ := Option.map_eq_some_iff.1 hfilled.symm
    refine ⟨hd.toRefilled.congr rfl rfl, q, hq, fun a ha => ?_, ?_⟩
    · obtain ⟨q', hq', htakes⟩ := hd.takes a ha
      cases hq.symm.trans hq'
      exact htakes
    · rw [hd.draws, hd.bound]
  · intro _ c hc
    rw [hc]
    exact hd.begun (List.Subset.refl _)

/-- **What drawing a stage does.** It succeeds with a record of the program that
got all values of the stage, each of which the program takes; or it fails
without a record, and the program got some of these values. -/
theorem ends_drawStage_drawn (t : TickInput) (previous : Option TextureId) (st : ShaderStage)
    (b : HeadlessBackend) :
    Ends (fun d => d.device = b) (drawStage t previous st)
      (fun _ d => st.Drawn (st.assignments t previous) b d.device)
      fun _ d => st.Begun (st.assignments t previous) b d.device := by
  have hfilled : Ends (fun d => Turned b st d.device) (do
      onBackend st.ordinal (GraphicsBackend.useProgram st.program)
      st.bindings.forM (fillBinding t st.ordinal previous)
      st.externals.forM (fillExternal t st.ordinal)
      onBackend st.ordinal GraphicsBackend.draw)
      (fun _ d => st.Drawn (st.assignments t previous) b d.device)
      fun _ d => st.Begun (st.assignments t previous) b d.device := by
    refine Ends.bind (ends_useProgram_filling _) fun _ => ?_
    refine Ends.bind ((ends_forM_filling (fun x as => ends_fillBinding st.ordinal x) st.bindings
      []).weaken (fun _ h => h) (fun _ _ h => h) ?_) fun _ => ?_
    · intro _ d hd
      obtain ⟨given, hgiven, hd⟩ := hd
      exact hd.begun (List.subset_append_of_subset_left _ hgiven)
    refine Ends.bind ((ends_forM_filling (fun e as => ends_fillExternal st.ordinal e) st.externals
      _).weaken (fun _ h => h) (fun _ _ h => h) ?_) fun _ => ends_draw_drawn
    intro _ d hd
    obtain ⟨given, hgiven, hd⟩ := hd
    refine hd.begun (List.append_subset.2 ⟨List.subset_append_left .., ?_⟩)
    exact List.subset_append_of_subset_right _ hgiven
  refine Ends.bind (ends_bindTarget_turned _) fun _ => ?_
  dsimp only
  split
  · exact Ends.bind ((stays_clear_turned _).weaken (fun _ h => h) (fun _ _ h => h)
      fun _ _ hd => hd.begun) fun _ => hfilled
  · exact hfilled

end Stage

/-! ### All stages -/

/-- What programs of stages hold beyond what they were made with, on a device
`o`, are values that are proper for the stages. -/
structure Painted (proper : ShaderStage → Assignment → Prop) (stages : List ShaderStage)
    (o b : HeadlessBackend) : Prop where
  targets : b.targets = o.targets
  programs : ∀ st ∈ stages, ∃ p as, o.programs.get? st.program = some p ∧
    b.programs.get? st.program = some (p.fill as) ∧ ∀ a ∈ as, proper st a

/-- A record shows a stage as a tick draws it: its program has got the values of
the stage, on top of others that it got before, all of them proper. -/
def ShaderStage.Shows (st : ShaderStage) (proper : ShaderStage → Assignment → Prop)
    (o : HeadlessBackend) (t : TickInput) (previous : Option TextureId) (record : DrawRecord) :
    Prop :=
  ∃ p as, o.programs.get? st.program = some p ∧
    (∀ a ∈ as ++ st.assignments t previous, proper st a) ∧
    (∀ a ∈ st.assignments t previous, p.Takes a) ∧
    record = (p.fill (as ++ st.assignments t previous)).record st.program st.target

/-- Records show stages in order, each of which sees what the one before has drawn. -/
inductive Shown (proper : ShaderStage → Assignment → Prop) (o : HeadlessBackend) (t : TickInput) :
    Option TextureId → List ShaderStage → List DrawRecord → Prop
  | nil (previous : Option TextureId) : Shown proper o t previous [] []
  | cons {previous : Option TextureId} {st : ShaderStage} {stages : List ShaderStage}
      {record : DrawRecord} {records : List DrawRecord} :
    st.Shows proper o t previous record → Shown proper o t st.output stages records →
    Shown proper o t previous (st :: stages) (record :: records)

/-- What the stage at an index sees as the one before it, in a list of stages that
starts behind `previous`. -/
def drawnBefore (previous : Option TextureId) (stages : List ShaderStage) : Nat → Option TextureId
  | 0 => previous
  | i + 1 => (stages[i]?).bind (·.output)

/-- Each stage has its record, at the same place. -/
theorem Shown.getElem? {proper : ShaderStage → Assignment → Prop} {o : HeadlessBackend}
    {t : TickInput} {previous : Option TextureId} {stages : List ShaderStage}
    {records : List DrawRecord} (h : Shown proper o t previous stages records) :
    records.length = stages.length ∧ ∀ (i : Nat) (st : ShaderStage) (record : DrawRecord),
      stages[i]? = some st → records[i]? = some record →
      st.Shows proper o t (drawnBefore previous stages i) record := by
  induction h with
  | nil => exact ⟨rfl, fun i st record hget => nomatch hget⟩
  | @cons previous st stages record records hst _ ih =>
    refine ⟨congrArg Nat.succ ih.1, fun i st' record' hget hget' => ?_⟩
    cases i with
    | zero =>
      cases hget
      cases hget'
      exact hst
    | succ i =>
      have hrest := ih.2 i st' record' hget hget'
      cases i with
      | zero => exact hrest
      | succ i => exact hrest

/-- All values that a tick gives to stages are proper for them. -/
def Properly (proper : ShaderStage → Assignment → Prop) (t : TickInput) :
    Option TextureId → List ShaderStage → Prop
  | _, [] => True
  | previous, st :: stages =>
    (∀ a ∈ st.assignments t previous, proper st a) ∧ Properly proper t st.output stages

section Stages

variable {proper : ShaderStage → Assignment → Prop} {stages : List ShaderStage}
  {o b : HeadlessBackend} {t : TickInput}

/-- Values that are given to one stage are not given to another one. -/
theorem Painted.refilled (h : Painted proper stages o b) (hnodup : (stages.map (·.program)).Nodup)
    {st : ShaderStage} (hst : st ∈ stages) {as : List Assignment} (has : ∀ a ∈ as, proper st a)
    {c : HeadlessBackend} (hc : b.Refilled st.program as c) : Painted proper stages o c where
  targets := hc.targets.trans h.targets
  programs := by
    intro st' hst'
    obtain ⟨p, given, hp, hgiven, hproper⟩ := h.programs st' hst'
    by_cases heq : st'.program = st.program
    · obtain rfl : st' = st := List.inj_on_of_nodup_map hnodup hst' hst heq
      refine ⟨p, given ++ as, hp, ?_, List.forall_mem_append.2 ⟨hproper, has⟩⟩
      rw [Program.fill_append]
      exact hc.get?_self hgiven
    · exact ⟨p, given, hp, (hc.get?_ne heq).trans hgiven, hproper⟩

/-- A stage that was drawn is shown by the record behind those before. -/
theorem Painted.shows (h : Painted proper stages o b) {st : ShaderStage} (hst : st ∈ stages)
    {previous : Option TextureId} (has : ∀ a ∈ st.assignments t previous, proper st a)
    {c : HeadlessBackend} (hc : st.Drawn (st.assignments t previous) b c) :
    ∃ record, c.draws.toList = b.draws.toList ++ [record] ∧ st.Shows proper o t previous record := by
  obtain ⟨q, hq, htakes, hdraws⟩ := hc.record
  obtain ⟨p, given, hp, hgiven, hproper⟩ := h.programs st hst
  cases hq.symm.trans hgiven
  refine ⟨_, by rw [hdraws, Array.toList_push], p, given, hp,
    List.forall_mem_append.2 ⟨hproper, has⟩, fun a ha => ?_, ?_⟩
  · exact Program.takes_fill.1 (htakes a ha)
  · rw [Program.fill_append]

/-- **Stages are drawn in turn.** However this ends, their programs hold proper
values; and if it succeeds, each stage is shown by one record. -/
theorem ends_drawStages_shown {all : List ShaderStage} (hnodup : (all.map (·.program)).Nodup) :
    ∀ {stages : List ShaderStage} {previous : Option TextureId} (draws : List DrawRecord),
    (∀ st ∈ stages, st ∈ all) → Properly proper t previous stages →
    Ends (fun d => Painted proper all o d.device ∧ d.device.draws.toList = draws)
      (drawStages t previous stages)
      (fun _ d => Painted proper all o d.device ∧ ∃ records,
        d.device.draws.toList = draws ++ records ∧ Shown proper o t previous stages records)
      fun _ d => Painted proper all o d.device
  | [], previous, _, _, _ => Ends.pure fun _ hd => ⟨hd.1, [], by rw [hd.2, List.append_nil], .nil _⟩
  | st :: stages, previous, draws, hall, hproper => by
    have hst : st ∈ all := hall st (List.mem_cons_self ..)
    refine Ends.bind (R := fun _ d => Painted proper all o d.device ∧ ∃ record,
      d.device.draws.toList = draws ++ [record] ∧ st.Shows proper o t previous record)
      (Ends.of_forall fun d hd => ?_) fun _ => Ends.of_forall fun d hd => ?_
    · refine (ends_drawStage_drawn t previous st d.device).weaken (by rintro _ rfl; rfl) ?_ ?_
      · intro _ d' hdrawn
        refine ⟨hd.1.refilled hnodup hst hproper.1 hdrawn.toRefilled, ?_⟩
        rw [← hd.2]
        exact hd.1.shows hst hproper.1 hdrawn
      · intro _ d' hfailed
        obtain ⟨given, hgiven, hrefilled, -⟩ := hfailed
        exact hd.1.refilled hnodup hst (fun a ha => hproper.1 a (hgiven ha)) hrefilled
    · obtain ⟨hpainted, record, hdraws, hshows⟩ := hd
      have hrest := ends_drawStages_shown hnodup (draws ++ [record])
        (fun st' h => hall st' (List.mem_cons_of_mem st h)) hproper.2
      refine hrest.weaken (by rintro _ rfl; exact ⟨hpainted, hdraws⟩) ?_ fun _ _ h => h
      intro _ d' hd'
      obtain ⟨hpainted', records, hdraws', hshown⟩ := hd'
      exact ⟨hpainted', record :: records, by rw [hdraws', List.append_assoc]; rfl, .cons hshows hshown⟩

end Stages

/-! ### Ticks -/

/-- A rendering of certain stages whose programs hold proper values. -/
structure Staged (proper : ShaderStage → Assignment → Prop) (o : HeadlessBackend)
    (stages : List ShaderStage) (placeholder : TextureId) (r : Rendering HeadlessBackend) : Prop where
  painted : Painted proper stages o r.device
  stages : r.pipeline.stages = stages
  placeholder : r.pipeline.placeholder = placeholder

/-- **A tick that succeeds shows each stage once.** However a tick ends, the
programs of the stages hold proper values and those from outside are the same. -/
theorem ends_renderTick_shown {proper : ShaderStage → Assignment → Prop} {o : HeadlessBackend}
    {stages : List ShaderStage} (hnodup : (stages.map (·.program)).Nodup) {placeholder : TextureId}
    {r : Rendering HeadlessBackend} (hr : Staged proper o stages placeholder r) {seconds : Float32}
    (hproper : Properly proper (r.tickInput seconds) none stages) :
    Ends (fun r' => r' = r) (renderTick seconds)
      (fun _ r' => (Staged proper o stages placeholder r' ∧
          r'.pipeline.externals = r.pipeline.externals) ∧
        ∃ records, r'.device.draws.toList = r.device.draws.toList ++ records ∧
          Shown proper o (r.tickInput seconds) none stages records)
      fun _ r' => Staged proper o stages placeholder r' ∧
        r'.pipeline.externals = r.pipeline.externals := by
  let Kept : Rendering HeadlessBackend → Prop := fun r' =>
    Staged proper o stages placeholder r' ∧ r'.pipeline.externals = r.pipeline.externals
  let Drew : Rendering HeadlessBackend → Prop := fun r' => Kept r' ∧
    ∃ records, r'.device.draws.toList = r.device.draws.toList ++ records ∧
      Shown proper o (r.tickInput seconds) none stages records
  have hdrawAll (audio : SharedAudio Float32) : Ends (fun r' => r' = { r with audio })
      (drawAll (r.tickInput seconds)) (fun _ => Drew) fun _ => Kept := by
    refine Ends.get_bind fun _ h => Ends.within fun _ h' => ?_
    rw [h', h]
    have hdraw := ends_drawStages_shown hnodup (o := o) (r.device.draws.toList)
      (fun _ h => h) hproper
    rw [← hr.stages] at hdraw
    refine hdraw.weaken ?_ ?_ ?_
    · intro d hd
      rw [hd, hr.stages]
      exact ⟨hr.painted, rfl⟩
    · intro _ d hd
      rw [hr.stages] at hd
      exact ⟨⟨⟨hd.1, hr.stages, hr.placeholder⟩, rfl⟩, hd.2⟩
    · intro _ d hd
      rw [hr.stages] at hd
      exact ⟨⟨hd, hr.stages, hr.placeholder⟩, rfl⟩
  refine Ends.get_bind fun _ h => ?_
  rw [h]
  refine Ends.bind (R := fun _ r' => r' = { r with audio := r.audio.snapshot.2 })
    (Ends.set fun _ _ => rfl) fun _ => Ends.bind (hdrawAll _) fun _ => Ends.record_bind ?_
  refine Ends.bind (R := fun _ => Drew) (Ends.modify fun r' hr' => ?_) fun _ => Ends.pure fun _ h => h
  -- what is left moves the frames of the audio only
  obtain ⟨left, right, hmoved⟩ := r'.pipeline.moved_eq r.audio.snapshot.1
  have hmoved := hmoved r'.pipeline.store
  exact ⟨⟨⟨hr'.1.1.painted, (congrArg Pipeline.stages hmoved).trans hr'.1.1.stages,
    (congrArg Pipeline.placeholder hmoved).trans hr'.1.1.placeholder⟩,
    (congrArg Pipeline.externals hmoved).trans hr'.1.2⟩, hr'.2⟩

end AudioShader
