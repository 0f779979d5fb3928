/-
# Uniforms and chains are what was requested

The uniforms of a stage are told by the requests that were accepted: one for each
declaration, in their order, with the transforms that were added under its name.
Each name is declared once, and transforms are only added to uniforms that are
filled from audio. A request that is refused changes nothing.

Key definitions: `Call.declares?`, `Call.adds?`, `declaredBy`, `StageContext.BuiltBy`,
`StageContext.Admits`.
Key theorems: `StageContext.makes_iff`, `StageContext.BuiltBy.step`, `StageContext.BuiltBy.admits_iff`,
`uniforms_follow_requests`.
-/
import AudioShader.Proofs.Source.Accepted
import AudioShader.Proofs.Stage.Sources

namespace AudioShader

/-! ### What calls ask for -/

namespace Call

/-- The uniform that a call declares, with its chain still empty. -/
def declares? (call : Call) : Option UniformRequest :=
  if call.request = "uniform" then
    match call.args with
    | .text source :: .text name :: _ => (BindSource.ofName? source).map fun s => ⟨name, s, {}⟩
    | _ => none
  else none

/-- The name of a uniform, and the transform that a call adds to its chain. -/
def adds? (call : Call) : Option (String × Transform) :=
  if call.request = "transform" then
    match call.args with
    | .text name :: .text transform :: _ =>
      (Transform.ofName transform).toOption.map fun kind => (name, kind)
    | _ => none
  else none

theorem declares?_eq_some_iff {call : Call} {u : UniformRequest} : call.declares? = some u ↔
    call.request = "uniform" ∧ ∃ source name rest s, call.args = .text source :: .text name :: rest ∧
      BindSource.ofName? source = some s ∧ u = ⟨name, s, {}⟩ := by
  unfold declares?
  constructor
  · intro h
    split at h
    · next hrequest =>
      split at h
      · next source name rest hargs =>
        obtain ⟨s, hs, rfl⟩ := Option.map_eq_some_iff.1 h
        exact ⟨hrequest, source, name, rest, s, hargs, hs, rfl⟩
      · cases h
    · cases h
  · rintro ⟨hrequest, source, name, rest, s, hargs, hs, rfl⟩
    rw [if_pos hrequest, hargs]
    change (BindSource.ofName? source).map _ = _
    rw [hs, Option.map_some]

theorem adds?_eq_some_iff {call : Call} {name : String} {kind : Transform} :
    call.adds? = some (name, kind) ↔ call.request = "transform" ∧
      ∃ transform rest, call.args = .text name :: .text transform :: rest ∧
        Transform.ofName transform = .ok kind := by
  unfold adds?
  constructor
  · intro h
    split at h
    · next hrequest =>
      split at h
      · next name' transform rest hargs =>
        obtain ⟨kind', hkind, heq⟩ := Option.map_eq_some_iff.1 h
        obtain ⟨rfl, rfl⟩ := Prod.mk.inj heq
        refine ⟨hrequest, transform, rest, hargs, ?_⟩
        cases hname : Transform.ofName transform with
        | error fault =>
          rw [hname] at hkind
          cases hkind
        | ok kind =>
          rw [hname] at hkind
          cases hkind
          rfl
      · cases h
    · cases h
  · rintro ⟨hrequest, transform, rest, hargs, hkind⟩
    rw [if_pos hrequest, hargs]
    change (Transform.ofName transform).toOption.map _ = _
    rw [hkind]
    rfl

/-- No call does both. -/
theorem adds?_eq_none_of_declares? {call : Call} {u : UniformRequest} (h : call.declares? = some u) :
    call.adds? = none := by
  obtain ⟨hrequest, -⟩ := declares?_eq_some_iff.1 h
  rw [adds?, hrequest, if_neg (by decide)]

theorem declares?_eq_none_of_adds? {call : Call} {p : String × Transform} (h : call.adds? = some p) :
    call.declares? = none := by
  obtain ⟨hrequest, -⟩ := adds?_eq_some_iff.1 h
  rw [declares?, hrequest, if_neg (by decide)]

/-- A uniform that is declared comes from the catalog and has no chain yet. -/
theorem of_declares? {call : Call} {u : UniformRequest} (h : call.declares? = some u) :
    u.source ∈ BindSource.catalog ∧ u.chain = {} := by
  obtain ⟨-, source, name, rest, s, -, hs, rfl⟩ := declares?_eq_some_iff.1 h
  exact ⟨BindSource.mem_catalog_of_ofName? hs, rfl⟩

end Call

/-- The transforms that calls add under a name. -/
def chainOf (name : String) (calls : List Call) : Chain :=
  ⟨(calls.filterMap Call.adds?).filterMap fun p => if p.1 = name then some p.2 else none⟩

/-- The uniforms that calls declare, with the transforms that the calls add to them. -/
def declaredBy (calls : List Call) : List UniformRequest :=
  (calls.filterMap Call.declares?).map fun u => { u with chain := chainOf u.name calls }

section Concat

variable {calls : List Call} {call : Call} {u : UniformRequest} {name name' : String}
  {kind : Transform}

theorem chainOf_concat_of_none (h : call.adds? = none) :
    chainOf name (calls ++ [call]) = chainOf name calls := by
  simp [chainOf, List.filterMap_append, h]

theorem chainOf_concat_of_some (h : call.adds? = some (name', kind)) :
    chainOf name (calls ++ [call]) =
      if name' = name then (chainOf name calls).push kind else chainOf name calls := by
  by_cases hname : name' = name
  · simp [chainOf, List.filterMap_append, h, hname, Chain.push]
  · simp [chainOf, List.filterMap_append, h, hname]

/-- Nothing is added under a name that no call names. -/
theorem chainOf_eq_empty (h : ∀ call ∈ calls, ∀ kind, call.adds? ≠ some (name, kind)) :
    chainOf name calls = {} := by
  have hnone : ∀ p ∈ calls.filterMap Call.adds?,
      (if p.1 = name then some p.2 else none) = none := by
    intro p hp
    obtain ⟨call, hcall, hadds⟩ := List.mem_filterMap.1 hp
    refine if_neg fun heq => h call hcall p.2 ?_
    rw [hadds, ← heq]
  rw [chainOf, List.filterMap_eq_nil_iff.2 hnone]

/-- A declaration adds a uniform at the end. -/
theorem declaredBy_concat_of_declares? (h : call.declares? = some u)
    (hnew : ∀ call ∈ calls, ∀ kind, call.adds? ≠ some (u.name, kind)) :
    declaredBy (calls ++ [call]) = declaredBy calls ++ [u] := by
  have hadds := Call.adds?_eq_none_of_declares? h
  have hchain : chainOf u.name calls = u.chain := by
    rw [chainOf_eq_empty hnew, (Call.of_declares? h).2]
  simp only [declaredBy, List.filterMap_append, List.map_append, chainOf_concat_of_none hadds]
  rw [List.filterMap_cons, h, List.filterMap_nil, List.map_singleton, hchain]

/-- A transform goes to the chain of its name. -/
theorem declaredBy_concat_of_adds? (h : call.adds? = some (name, kind)) :
    declaredBy (calls ++ [call]) = (declaredBy calls).map fun u =>
      if u.name = name then { u with chain := u.chain.push kind } else u := by
  have hdeclares := Call.declares?_eq_none_of_adds? h
  simp only [declaredBy, List.filterMap_append, List.filterMap_cons, hdeclares, List.filterMap_nil,
    List.append_nil, List.map_map]
  refine List.map_congr_left fun u _ => ?_
  rw [Function.comp_apply, chainOf_concat_of_some h]
  by_cases hname : u.name = name
  · rw [if_pos hname, if_pos hname.symm]
  · rw [if_neg hname, if_neg (Ne.symm hname)]

end Concat

/-! ### What handlers accept -/

/-- The requests of a stage that are refused leave the context as it is. -/
theorem refusalsKeep_stageRequests : stageRequests.RefusalsKeep := by
  intro name request hget args c reason c' hcall
  rcases stage_request_cases hget with ⟨-, rfl⟩ | ⟨-, rfl⟩
  · obtain ⟨fault, -, -, hkept⟩ := of_stageHandler_refuses hcall
    exact hkept
  · obtain ⟨fault, -, -, hkept⟩ := of_stageHandler_refuses hcall
    exact hkept

namespace StageContext

variable {c c' start : StageContext} {call : Call} {calls made : List Call}

/-- A call that is accepted declares a uniform under a new name, or adds a
transform to the uniform of a name, which is filled from audio. -/
theorem makes_iff : stageRequests.Makes c [call] c' ↔
    (∃ u, call.declares? = some u ∧ (∀ v ∈ c.uniforms, v.name ≠ u.name) ∧
        c' = { c with uniforms := c.uniforms ++ [u] }) ∨
      ∃ name kind u, call.adds? = some (name, kind) ∧ c.uniform? name = some u ∧
        u.source.kind.isAudio = true ∧ c' = { c with uniforms := extend name kind c.uniforms } := by
  rw [RequestTable.makes_singleton_iff]
  constructor
  · rintro ⟨request, hget, hcall⟩
    rcases stage_request_cases hget with ⟨hname, rfl⟩ | ⟨hname, rfl⟩
    · obtain ⟨source, name, rest, hargs, hbind⟩ := stageHandler_eq_ok_iff.1 hcall
      obtain ⟨s, hs, hnew, hc'⟩ := bindUniform_eq_ok_iff.1 hbind
      have hdeclares : call.declares? = some ⟨name, s, {}⟩ :=
        Call.declares?_eq_some_iff.2 ⟨hname, source, name, rest, s, hargs, hs, rfl⟩
      exact .inl ⟨_, hdeclares, hnew, hc'⟩
    · obtain ⟨name, transform, rest, hargs, hadd⟩ := stageHandler_eq_ok_iff.1 hcall
      obtain ⟨kind, u, hkind, hu, haudio, hc'⟩ := addTransform_eq_ok_iff.1 hadd
      have hadds : call.adds? = some (name, kind) :=
        Call.adds?_eq_some_iff.2 ⟨hname, transform, rest, hargs, hkind⟩
      exact .inr ⟨name, kind, u, hadds, hu, haudio, hc'⟩
  · rintro (⟨u, hdeclares, hnew, rfl⟩ | ⟨name, kind, u, hadds, hu, haudio, rfl⟩)
    · obtain ⟨hname, source, name, rest, s, hargs, hs, rfl⟩ := Call.declares?_eq_some_iff.1 hdeclares
      refine ⟨_, by rw [hname]; rfl, ?_⟩
      exact stageHandler_eq_ok_iff.2 ⟨source, name, rest, hargs,
        bindUniform_eq_ok_iff.2 ⟨s, hs, hnew, rfl⟩⟩
    · obtain ⟨hname, transform, rest, hargs, hkind⟩ := Call.adds?_eq_some_iff.1 hadds
      refine ⟨_, by rw [hname]; rfl, ?_⟩
      exact stageHandler_eq_ok_iff.2 ⟨name, transform, rest, hargs,
        addTransform_eq_ok_iff.2 ⟨kind, u, hkind, hu, haudio, rfl⟩⟩

/-! ### What calls build -/

/-- Where each name is declared once, a transform is added wherever the name is. -/
theorem extend_eq_map {name : String} {kind : Transform} : ∀ {us : List UniformRequest},
    (us.map (·.name)).Nodup → extend name kind us =
      us.map fun u => if u.name = name then { u with chain := u.chain.push kind } else u
  | [], _ => rfl
  | u :: us, h => by
    rw [List.map_cons, List.nodup_cons] at h
    unfold extend
    by_cases hname : u.name = name
    · have hrest : us.map (fun v => if v.name = name then { v with chain := v.chain.push kind } else v)
          = us := by
        refine (List.map_congr_left fun v hv => if_neg fun heq => h.1 ?_).trans (List.map_id us)
        rw [hname, ← heq]
        exact List.mem_map_of_mem hv
      rw [if_pos hname, List.map_cons, if_pos hname, hrest]
    · rw [if_neg hname, List.map_cons, if_neg hname, extend_eq_map h.2]

theorem of_uniform? {name : String} {u : UniformRequest} (h : c.uniform? name = some u) :
    u ∈ c.uniforms ∧ u.name = name := by
  have hname := List.find?_some h
  exact ⟨List.mem_of_find?_eq_some h, beq_iff_eq.1 hname⟩

/-- A context that calls have built from one with no uniforms: it has the uniforms
that they declare, of different names and from the catalog, with chains only where
they are filled from audio, and each call has declared one of them or added to one. -/
structure BuiltBy (start : StageContext) (made : List Call) (c : StageContext) : Prop where
  context : c = { start with uniforms := declaredBy made }
  distinct : c.Distinct
  catalogued : c.Catalogued
  silent : ∀ u ∈ c.uniforms, u.source.kind.isAudio = false → u.chain = {}
  counted : ∀ call ∈ made, call.declares?.isSome = true ∨
    ∃ u ∈ c.uniforms, ∃ kind, call.adds? = some (u.name, kind)

/-- A call that a stage can accept: it declares a uniform under a new name, or adds
a transform to a uniform that is filled from audio. -/
def Admits (c : StageContext) (call : Call) : Prop :=
  (∃ u, call.declares? = some u ∧ ∀ v ∈ c.uniforms, v.name ≠ u.name) ∨
    ∃ u ∈ c.uniforms, u.source.kind.isAudio = true ∧ ∃ kind, call.adds? = some (u.name, kind)

namespace BuiltBy

theorem empty (h : start.uniforms = []) : BuiltBy start [] start where
  context := by
    cases start
    cases h
    rfl
  distinct := by
    rw [Distinct, h]
    exact List.nodup_nil
  catalogued := by
    rw [Catalogued, h]
    exact List.forall_mem_nil _
  silent := by
    rw [h]
    exact List.forall_mem_nil _
  counted := List.forall_mem_nil _

/-- A uniform is the one that is found under its name. -/
theorem uniform?_eq_some (h : BuiltBy start made c) {u : UniformRequest} (hu : u ∈ c.uniforms) :
    c.uniform? u.name = some u := by
  cases hfound : c.uniform? u.name with
  | none =>
    have hnew := uniform?_isSome_eq_false_iff.1 (congrArg Option.isSome hfound)
    exact absurd rfl (hnew u hu)
  | some v =>
    obtain ⟨hv, hname⟩ := of_uniform? hfound
    rw [List.inj_on_of_nodup_map h.distinct hv hu hname]

/-- A call so far names none but the uniforms. -/
theorem adds?_ne (h : BuiltBy start made c) {name : String} (hnew : ∀ v ∈ c.uniforms, v.name ≠ name) :
    ∀ call ∈ made, ∀ kind, call.adds? ≠ some (name, kind) := by
  intro call hcall kind hadds
  rcases h.counted call hcall with hdeclares | ⟨v, hv, kind', hadds'⟩
  · rw [Call.declares?_eq_none_of_adds? hadds] at hdeclares
    cases hdeclares
  · rw [hadds, Option.some.injEq, Prod.mk.injEq] at hadds'
    exact hnew v hv hadds'.1.symm

/-- A declaration that is accepted builds one more uniform. -/
theorem declare (h : BuiltBy start made c) {u : UniformRequest} (hdeclares : call.declares? = some u)
    (hnew : ∀ v ∈ c.uniforms, v.name ≠ u.name) (hc' : c' = { c with uniforms := c.uniforms ++ [u] })
    (hdistinct : c'.Distinct) (hcatalogued : c'.Catalogued) : BuiltBy start (made ++ [call]) c' where
  context := by
    rw [declaredBy_concat_of_declares? hdeclares (h.adds?_ne hnew), hc', h.context]
  distinct := hdistinct
  catalogued := hcatalogued
  silent := by
    subst hc'
    refine List.forall_mem_append.2 ⟨h.silent, fun v hv _ => ?_⟩
    rw [List.mem_singleton.1 hv]
    exact (Call.of_declares? hdeclares).2
  counted := by
    subst hc'
    refine List.forall_mem_append.2 ⟨fun call' hcall' => ?_, fun call' hcall' => ?_⟩
    · exact (h.counted call' hcall').imp_right fun ⟨v, hv, hadds⟩ =>
        ⟨v, List.mem_append_left _ hv, hadds⟩
    · rw [List.mem_singleton.1 hcall', hdeclares]
      exact .inl rfl

/-- A transform that is accepted is added to one uniform. -/
theorem add (h : BuiltBy start made c) {kind : Transform} {u : UniformRequest}
    (hadds : call.adds? = some (u.name, kind)) (hu : u ∈ c.uniforms)
    (haudio : u.source.kind.isAudio = true)
    (hc' : c' = { c with uniforms := extend u.name kind c.uniforms })
    (hdistinct : c'.Distinct) (hcatalogued : c'.Catalogued) : BuiltBy start (made ++ [call]) c' where
  context := by
    have huniforms : c.uniforms = declaredBy made := by rw [h.context]
    rw [declaredBy_concat_of_adds? hadds, hc', extend_eq_map h.distinct, huniforms, h.context]
  distinct := hdistinct
  catalogued := hcatalogued
  silent := by
    rw [hc', extend_eq_map h.distinct]
    refine List.forall_mem_map.2 fun v hv hsilent => ?_
    by_cases hname : v.name = u.name
    · -- The uniform of the name is filled from audio.
      obtain rfl := List.inj_on_of_nodup_map h.distinct hv hu hname
      rw [if_pos rfl, haudio] at hsilent
      cases hsilent
    · rw [if_neg hname] at hsilent ⊢
      exact h.silent v hv hsilent
  counted := by
    have hnames : ∀ v ∈ c.uniforms, ∃ v' ∈ c'.uniforms, v'.name = v.name := by
      intro v hv
      have hmem : v.name ∈ c'.uniforms.map (·.name) := by
        rw [hc', map_name_extend]
        exact List.mem_map_of_mem hv
      exact List.mem_map.1 hmem
    refine List.forall_mem_append.2 ⟨fun call' hcall' => ?_, fun call' hcall' => ?_⟩
    · refine (h.counted call' hcall').imp_right fun ⟨v, hv, kind', hadds'⟩ => ?_
      obtain ⟨v', hv', hname⟩ := hnames v hv
      exact ⟨v', hv', kind', by rw [hname, hadds']⟩
    · obtain ⟨u', hu', hname⟩ := hnames u hu
      rw [List.mem_singleton.1 hcall']
      exact .inr ⟨u', hu', kind, by rw [hname, hadds]⟩

/-- What one accepted call builds. -/
theorem step (h : BuiltBy start made c) (hmakes : stageRequests.Makes c [call] c') :
    BuiltBy start (made ++ [call]) c' := by
  obtain ⟨request, hget, hcall⟩ := RequestTable.makes_singleton_iff.1 hmakes
  have hdistinct : c'.Distinct := kept_distinct.keeps _ _ hget _ _ _ hcall h.distinct
  have hcatalogued : c'.Catalogued := kept_catalogued.keeps _ _ hget _ _ _ hcall h.catalogued
  rcases makes_iff.1 hmakes with ⟨u, hdeclares, hnew, hc'⟩ |
    ⟨name, kind, u, hadds, hfound, haudio, hc'⟩
  · exact h.declare hdeclares hnew hc' hdistinct hcatalogued
  · obtain ⟨hu, rfl⟩ := of_uniform? hfound
    exact h.add hadds hu haudio hc' hdistinct hcatalogued

/-- What accepted calls build. -/
theorem makes (h : BuiltBy start made c) (hmakes : stageRequests.Makes c calls c') :
    BuiltBy start (made ++ calls) c' := by
  induction hmakes generalizing made with
  | none =>
    rw [List.append_nil]
    exact h
  | call hget hcall _ ih =>
    have hstep := h.step (RequestTable.makes_singleton_iff.2 ⟨_, hget, hcall⟩)
    have hrest := ih hstep
    rwa [List.append_assoc] at hrest

/-- Of the calls that may come next a stage accepts those that it can accept. -/
theorem admits_iff (h : BuiltBy start made c) :
    (∃ c', stageRequests.Makes c [call] c') ↔ c.Admits call := by
  constructor
  · rintro ⟨c', hmakes⟩
    rcases makes_iff.1 hmakes with ⟨u, hdeclares, hnew, -⟩ | ⟨name, kind, u, hadds, hfound, haudio, -⟩
    · exact .inl ⟨u, hdeclares, hnew⟩
    · obtain ⟨hu, rfl⟩ := of_uniform? hfound
      exact .inr ⟨u, hu, haudio, kind, hadds⟩
  · rintro (⟨u, hdeclares, hnew⟩ | ⟨u, hu, haudio, kind, hadds⟩)
    · exact ⟨_, makes_iff.2 (.inl ⟨u, hdeclares, hnew, rfl⟩)⟩
    · exact ⟨_, makes_iff.2 (.inr ⟨u.name, kind, u, hadds, h.uniform?_eq_some hu, haudio, rfl⟩)⟩

end BuiltBy
end StageContext

/-- **Uniforms and chains are exactly what was requested.** Whatever requests are
made of a stage one after the other, its uniforms are those that the accepted ones
declare, in their order, each with the transforms that accepted ones add under its
name; their names are different, their sources are of the catalog, and only those
filled from audio have transforms. The next request is accepted where it declares a
new name or adds to such a uniform, and one that is refused leaves the context as it
was. So it is behind the lines of any files that are processed, as far as that goes. -/
theorem uniforms_follow_requests (settings : PipelineSettings) (binds : List BindDecl) :
    (∀ calls made c, stageRequests.attempt calls ⟨settings, binds, []⟩ = (made, c) →
      List.Sublist made calls ∧ StageContext.BuiltBy ⟨settings, binds, []⟩ made c ∧
        ∀ call, (∃ c', stageRequests.Makes c [call] c') ↔ c.Admits call) ∧
    (∀ name request, stageRequests.get? name = some request → ∀ args c reason c',
      request.handler args c = (.error reason, c') → c' = c) ∧
    ∀ files maxDepth unit log out r log',
      process { files, requests := stageRequests, maxDepth } unit
        { context := ⟨settings, binds, []⟩ } log = ((out, r), log') →
      ∃ made refused, r.calls.toList = made ++ refused ∧
        StageContext.BuiltBy ⟨settings, binds, []⟩ made r.context ∧
        refused.length ≤ 1 ∧ (out.isOk = true → refused = []) := by
  have hstart : StageContext.BuiltBy ⟨settings, binds, []⟩ [] ⟨settings, binds, []⟩ := .empty rfl
  refine ⟨?_, refusalsKeep_stageRequests, ?_⟩
  · intro calls made c hattempt
    have hmakes := RequestTable.makes_attempt refusalsKeep_stageRequests calls ⟨settings, binds, []⟩
    have hamong := stageRequests.attempt_sublist calls ⟨settings, binds, []⟩
    rw [hattempt] at hmakes hamong
    have hbuilt := hstart.makes hmakes
    exact ⟨hamong, hbuilt, fun call => hbuilt.admits_iff⟩
  · intro files maxDepth unit log out r log' hrun
    obtain ⟨ps, hwalk, -⟩ := walk_of_process hrun
    obtain ⟨made, refused, hcalls, hmakes, hone, hok⟩ := hwalk.made refusalsKeep_stageRequests
    refine ⟨made, refused, hcalls, hstart.makes hmakes, hone, fun hout => hok ?_⟩
    cases out with
    | ok source => rfl
    | error e => cases hout

/-- A request of a stage with two texts, at a line. -/
def stageCall (line : Nat) (request first second : String) : Call :=
  ⟨⟨⟨"1.frag"⟩, line⟩, request, [.text first, .text second]⟩

/-- Two uniforms are filled from audio, and two of the requests are refused. -/
def mixedCalls : List Call :=
  [stageCall 1 "uniform" "audio_l" "left", stageCall 2 "uniform" "time" "t",
    stageCall 3 "transform" "left" "window", stageCall 4 "transform" "t" "fft",
    stageCall 5 "uniform" "audio_r" "right", stageCall 6 "transform" "right" "fft",
    stageCall 7 "uniform" "prev" "left", stageCall 8 "transform" "left" "fft"]

def mixedUnit : SourceUnit := .ofText ⟨"1.frag"⟩
  "#request uniform \"audio_l\" left\n#request transform left \"fft\"\n#request uniform time left\n"

theorem uniforms_mixedCalls :
    (∃ made c, stageRequests.attempt mixedCalls ⟨{}, [], []⟩ = (made, c) ∧
        StageContext.BuiltBy ⟨{}, [], []⟩ made c ∧
        made.map (·.place.line) = [1, 2, 3, 5, 6, 8] ∧
        c.uniforms.map (fun u => (u.name, u.source.name, u.chain.steps)) =
          [("left", "audio_l", [.window, .fft]), ("t", "time", []), ("right", "audio_r", [.fft])] ∧
        ∃ c', stageRequests.Makes c [stageCall 9 "uniform" "time" "u"] c') ∧
      (∃ reason c', stageHandler "bind source" "uniform name" StageContext.bindUniform []
          ⟨{}, [], []⟩ = (.error reason, c') ∧ c' = ⟨{}, [], []⟩) ∧
      ∃ r : Run StageContext, ∃ made refused, r.calls.toList = made ++ refused ∧
        StageContext.BuiltBy ⟨{}, [], []⟩ made r.context ∧
        r.context.uniforms.map (fun u => (u.name, u.chain.steps)) = [("left", [.fft])] := by
  obtain ⟨hcalls, hrefused, hrun⟩ := uniforms_follow_requests {} []
  refine ⟨?_, ?_, ?_⟩
  · obtain ⟨-, hbuilt, hadmits⟩ := hcalls mixedCalls _ _ rfl
    refine ⟨_, _, rfl, hbuilt, by decide +kernel, by decide +kernel, (hadmits _).2 (.inl ?_)⟩
    exact ⟨⟨"u", ⟨"time", .float, .time⟩, {}⟩, by decide +kernel, by decide +kernel⟩
  · exact ⟨_, _, rfl, hrefused "uniform" _ rfl [] _ _ _ rfl⟩
  · obtain ⟨made, refused, hcalls, hbuilt, -⟩ := hrun {} 32 mixedUnit #[] _ _ _ rfl
    exact ⟨_, made, refused, hcalls, hbuilt, by decide +kernel⟩

end AudioShader
