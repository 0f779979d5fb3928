/-
# What a stage asks for

What handlers keep of a context, a whole run keeps. The requests of a stage only
ever ask for sources of the catalog and for each name once, and so does a stage
that is processed.

Key definitions: `StageContext.Catalogued`, `StageContext.Distinct`.
Key theorems: `Processed.keeps_context`, `stageHandler_eq_ok_iff`, `stage_request_cases`,
`keeps_of_process`, `mem_catalog_of_process`, `nodup_names_of_process`.
-/
import Mathlib.Data.List.Nodup
import AudioShader.Proofs.Source.Trace
import AudioShader.Stage.Header

namespace AudioShader

open AudioShader.Action (Gives)

/-! ### What handlers keep -/

namespace RequestTable

variable {C : Type}

theorem mem_of_mem_insertSorted {r x : Request C} : ∀ {es : List (Request C)},
    x ∈ insertSorted r es → x = r ∨ x ∈ es
  | [], h => .inl (List.mem_singleton.1 h)
  | e :: es, h => by
    rw [insertSorted] at h
    split at h
    · exact List.mem_cons.1 h
    · split at h
      · exact (List.mem_cons.1 h).imp_right (List.mem_cons_of_mem e)
      · rcases List.mem_cons.1 h with rfl | h
        · exact .inr (List.mem_cons_self ..)
        · exact (mem_of_mem_insertSorted h).imp_right (List.mem_cons_of_mem e)

theorem mem_of_mem_foldl_insert : ∀ {rs : List (Request C)} {t : RequestTable C} {x : Request C},
    x ∈ (rs.foldl insert t).entries → x ∈ rs ∨ x ∈ t.entries
  | [], _, _, h => .inr h
  | r :: rs, t, x, h => by
    rw [List.foldl_cons] at h
    rcases mem_of_mem_foldl_insert h with h | h
    · exact .inl (List.mem_cons_of_mem r h)
    · refine (mem_of_mem_insertSorted h).imp_left fun heq => ?_
      rw [heq]
      exact List.mem_cons_self ..

/-- A table of a list has no other requests. -/
theorem mem_of_get?_ofList {rs : List (Request C)} {name : String} {request : Request C}
    (h : (ofList rs).get? name = some request) : request ∈ rs :=
  (mem_of_mem_foldl_insert (List.mem_of_find?_eq_some h)).resolve_right (List.not_mem_nil)

/-- What is found under a name has that name. -/
theorem name_of_get? {t : RequestTable C} {name : String} {request : Request C}
    (h : t.get? name = some request) : request.name = name := by
  unfold get? at h
  have hname := List.find?_some h
  exact beq_iff_eq.1 hname

/-- The handlers of a table keep a property of the context where they succeed. -/
def Keeps (t : RequestTable C) (I : C → Prop) : Prop :=
  ∀ name request, t.get? name = some request → ∀ args c c',
    request.handler args c = (.ok (), c') → I c → I c'

end RequestTable

/-- A run keeps what its handlers keep. -/
theorem Processed.keeps_context {C : Type} [Substitutions C] {setup : Setup C} {I : C → Prop}
    (hI : setup.requests.Keeps I) {stack : List FileIdentity} {unit : SourceUnit}
    {file number : Nat} {k : Carry} {lines : List (List Char)} {r r' : Run C}
    (h : Processed setup stack unit file number k lines r r') (hr : I r.context) : I r'.context := by
  induction h with
  | done => exact hr
  | includeFile _ _ _ _ _ _ _ ihn ihr => exact ihr (ihn hr)
  | request _ hdispatched _ ih =>
    cases hdispatched with
    | intro hget _ hhandler => exact ih (hI _ _ hget _ _ _ hhandler hr)
  | written _ _ _ ih => exact ih hr

/-! ### Stages -/

namespace StageContext

/-- A property of contexts that stays when a uniform is declared and when a
transform is added. -/
structure Kept (I : StageContext → Prop) : Prop where
  bindUniform {c c' : StageContext} {source name : String} :
    I c → c.bindUniform source name = .ok c' → I c'
  addTransform {c c' : StageContext} {name transform : String} :
    I c → c.addTransform name transform = .ok c' → I c'

/-- No uniform has a name if none is found under it. -/
theorem uniform?_isSome_eq_false_iff {c : StageContext} {name : String} :
    (c.uniform? name).isSome = false ↔ ∀ u ∈ c.uniforms, u.name ≠ name := by
  rw [uniform?, Option.isSome_eq_false_iff, Option.isNone_iff_eq_none, List.find?_eq_none]
  simp only [beq_iff_eq, ne_eq]

/-- A uniform is declared from a known source, under a name that is new. -/
theorem bindUniform_eq_ok_iff {c c' : StageContext} {source name : String} :
    c.bindUniform source name = .ok c' ↔ ∃ s, BindSource.ofName? source = some s ∧
      (∀ u ∈ c.uniforms, u.name ≠ name) ∧
      c' = { c with uniforms := c.uniforms ++ [⟨name, s, {}⟩] } := by
  rw [← uniform?_isSome_eq_false_iff]
  unfold StageContext.bindUniform
  constructor
  · intro h
    split at h
    · cases h
    · next s hs =>
      split at h
      · cases h
      · next hnew =>
        cases h
        exact ⟨s, hs, Bool.eq_false_iff.2 hnew, rfl⟩
  · rintro ⟨s, hs, hnew, rfl⟩
    rw [hs, hnew]
    rfl

/-- A transform is added to the chain of a uniform that is filled from audio. -/
theorem addTransform_eq_ok_iff {c c' : StageContext} {name transform : String} :
    c.addTransform name transform = .ok c' ↔ ∃ kind u, Transform.ofName transform = .ok kind ∧
      c.uniform? name = some u ∧ u.source.kind.isAudio = true ∧
      c' = { c with uniforms := extend name kind c.uniforms } := by
  unfold StageContext.addTransform
  constructor
  · intro h
    split at h
    · cases h
    · next kind hkind =>
      split at h
      · cases h
      · next u hu =>
        split at h
        · next haudio =>
          cases h
          exact ⟨kind, u, hkind, hu, haudio, rfl⟩
        · cases h
  · rintro ⟨kind, u, hkind, hu, haudio, rfl⟩
    rw [hkind, hu]
    exact if_pos haudio

@[simp] theorem map_name_extend (name : String) (kind : Transform) :
    ∀ us : List UniformRequest, (extend name kind us).map (·.name) = us.map (·.name)
  | [] => rfl
  | u :: us => by
    unfold extend
    split
    · rfl
    · rw [List.map_cons, map_name_extend name kind us, List.map_cons]

@[simp] theorem map_source_extend (name : String) (kind : Transform) :
    ∀ us : List UniformRequest, (extend name kind us).map (·.source) = us.map (·.source)
  | [] => rfl
  | u :: us => by
    unfold extend
    split
    · rfl
    · rw [List.map_cons, map_source_extend name kind us, List.map_cons]

/-- All uniforms are asked for from sources of the catalog. -/
def Catalogued (c : StageContext) : Prop := ∀ u ∈ c.uniforms, u.source ∈ BindSource.catalog

theorem kept_catalogued : Kept Catalogued where
  bindUniform {c c' source name} h hbind := by
    obtain ⟨s, hs, -, rfl⟩ := bindUniform_eq_ok_iff.1 hbind
    refine List.forall_mem_append.2 ⟨h, fun u hu => ?_⟩
    rw [List.mem_singleton.1 hu]
    exact BindSource.mem_catalog_of_ofName? hs
  addTransform {c c' name transform} h hadd := by
    obtain ⟨kind, -, -, -, -, rfl⟩ := addTransform_eq_ok_iff.1 hadd
    intro u hu
    have hsource : u.source ∈ c.uniforms.map (·.source) := by
      rw [← map_source_extend name kind]
      exact List.mem_map_of_mem hu
    obtain ⟨u', hu', heq⟩ := List.mem_map.1 hsource
    rw [← heq]
    exact h u' hu'

/-- Each name is asked for once. -/
def Distinct (c : StageContext) : Prop := (c.uniforms.map (·.name)).Nodup

theorem kept_distinct : Kept Distinct where
  bindUniform {c c' source name} h hbind := by
    obtain ⟨s, -, hnew, rfl⟩ := bindUniform_eq_ok_iff.1 hbind
    have habsent : name ∉ c.uniforms.map (·.name) := by
      simpa using hnew
    rw [Distinct, List.map_append, List.map_singleton]
    exact (List.perm_append_singleton ..).nodup_iff.2 (List.nodup_cons.2 ⟨habsent, h⟩)
  addTransform {c c' name transform} h hadd := by
    obtain ⟨kind, -, -, -, -, rfl⟩ := addTransform_eq_ok_iff.1 hadd
    rw [Distinct, map_name_extend]
    exact h

end StageContext

/-! ### The requests of a stage -/

/-- The two texts are the first two arguments. -/
theorem twoTexts_eq_ok_iff {first second a b : String} {args : List Arg} :
    twoTexts first second args = .ok (a, b) ↔ ∃ rest, args = .text a :: .text b :: rest := by
  constructor
  · intro h
    unfold twoTexts at h
    match args, h with
    | .text a' :: .text b' :: rest, h =>
      cases h
      exact ⟨rest, rfl⟩
  · rintro ⟨rest, rfl⟩
    rfl

section Handler

variable {first second : String}
  {change : StageContext → String → String → Except StageFault StageContext} {args : List Arg}
  {c c' : StageContext}

theorem stageHandler_apply : stageHandler first second change args c =
      (match (twoTexts first second args).bind fun p => change c p.1 p.2 with
      | .ok c' => set c'
      | .error fault => throw fault.message : ExceptT String (StateM StageContext) Unit) c := rfl

/-- A handler accepts two texts that the context can be changed with. -/
theorem stageHandler_eq_ok_iff : stageHandler first second change args c = (.ok (), c') ↔
    ∃ a b rest, args = .text a :: .text b :: rest ∧ change c a b = .ok c' := by
  rw [stageHandler_apply]
  constructor
  · intro h
    cases htexts : twoTexts first second args with
    | error fault =>
      rw [htexts] at h
      cases h
    | ok p =>
      rw [htexts, Except.bind] at h
      obtain ⟨rest, hargs⟩ := twoTexts_eq_ok_iff.1 htexts
      cases hchange : change c p.1 p.2 with
      | error fault =>
        rw [hchange] at h
        cases h
      | ok c'' =>
        rw [hchange] at h
        cases h
        exact ⟨p.1, p.2, rest, hargs, hchange⟩
  · rintro ⟨a, b, rest, rfl, hchange⟩
    rw [twoTexts_eq_ok_iff.2 ⟨rest, rfl⟩, Except.bind, hchange]
    rfl

/-- A handler that refuses has a fault to tell, and leaves the context as it is. -/
theorem of_stageHandler_refuses {reason : String}
    (h : stageHandler first second change args c = (.error reason, c')) :
    ∃ fault, ((twoTexts first second args).bind fun p => change c p.1 p.2) = .error fault ∧
      reason = fault.message ∧ c' = c := by
  rw [stageHandler_apply] at h
  cases hchange : (twoTexts first second args).bind fun p => change c p.1 p.2 with
  | error fault =>
    rw [hchange] at h
    cases h
    exact ⟨fault, rfl, rfl, rfl⟩
  | ok c'' =>
    rw [hchange] at h
    cases h

end Handler

/-- A stage makes two requests. -/
theorem stage_request_cases {name : String} {request : Request StageContext}
    (h : stageRequests.get? name = some request) :
    (name = "uniform" ∧ request = ⟨"uniform", "ss",
        stageHandler "bind source" "uniform name" StageContext.bindUniform⟩) ∨
      (name = "transform" ∧ request = ⟨"transform", "ss",
        stageHandler "uniform name" "transform name" StageContext.addTransform⟩) := by
  have hname := RequestTable.name_of_get? h
  rcases List.mem_cons.1 (RequestTable.mem_of_get?_ofList h) with rfl | hmem
  · exact .inl ⟨hname.symm, rfl⟩
  · obtain rfl := List.mem_singleton.1 hmem
    exact .inr ⟨hname.symm, rfl⟩

theorem StageContext.Kept.keeps {I : StageContext → Prop} (hI : Kept I) : stageRequests.Keeps I := by
  intro name request hget args c c' hhandler hc
  rcases stage_request_cases hget with ⟨-, rfl⟩ | ⟨-, rfl⟩
  · obtain ⟨source, name, -, -, hbind⟩ := stageHandler_eq_ok_iff.1 hhandler
    exact hI.bindUniform hc hbind
  · obtain ⟨name, transform, -, -, hadd⟩ := stageHandler_eq_ok_iff.1 hhandler
    exact hI.addTransform hc hadd

/-- What the requests of a stage keep, processing it keeps. -/
theorem keeps_of_process {I : StageContext → Prop} (hI : StageContext.Kept I) {setup : StageSetup}
    (hstart : I setup.context) {unit : SourceUnit} {source : ProcessedSource}
    {context : StageContext} (h : Gives (setup.process unit) setup.context source context) :
    I context ∧
      ∃ plain : ProcessedSource, source = plain.withLead (stageHeader setup.settings setup.binds) := by
  obtain ⟨plain, c, hprocess, h⟩ := Gives.bind h
  obtain ⟨rfl, rfl⟩ := h.of_pure
  refine ⟨?_, plain, rfl⟩
  obtain ⟨log, log', hprocess⟩ := hprocess
  unfold processWith at hprocess
  rcases hrun : process { files := setup.files, requests := stageRequests } unit
    { context := setup.context } log with ⟨⟨e | s, run⟩, log₁⟩
  · rw [hrun] at hprocess
    cases hprocess
  · rw [hrun] at hprocess
    cases hprocess
    have hgives : Gives (process { files := setup.files, requests := stageRequests } unit)
        { context := setup.context } plain run := ⟨log, _, hrun⟩
    exact (processed_of_process hgives).1.keeps_context hI.keeps hstart

/-- The uniforms that a processed stage asks for have sources of the catalog. -/
theorem mem_catalog_of_process {setup : StageSetup} {unit : SourceUnit} {source : ProcessedSource}
    {context : StageContext} (h : Gives (setup.process unit) setup.context source context) :
    (∀ u ∈ context.uniforms, u.source ∈ BindSource.catalog) ∧
      ∃ plain : ProcessedSource, source = plain.withLead (stageHeader setup.settings setup.binds) :=
  keeps_of_process StageContext.kept_catalogued nofun h

/-- The uniforms that a processed stage asks for have different names. -/
theorem nodup_names_of_process {setup : StageSetup} {unit : SourceUnit} {source : ProcessedSource}
    {context : StageContext} (h : Gives (setup.process unit) setup.context source context) :
    (context.uniforms.map (·.name)).Nodup :=
  (keeps_of_process StageContext.kept_distinct List.nodup_nil h).1

end AudioShader
