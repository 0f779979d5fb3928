/-
# Binds that default to binds

The default of a bind is read as text of its own, so it may be a bind again:
`@a:@b:t` stands for what `a` is bound to, else for what `b` is bound to, else
for `t`. How far a default goes is told from outside at every level: up to what
ends it outside of its brackets. The levels agree on where that is, since all of
the chain, as it is written, has balanced brackets and nothing else in the way.

Key definitions: `Bracketed`, `Delimited`, `bindChain`, `chainText`.
Key theorems: `bindDefault_bracketed`, `readBind?_bindChain`,
`first_bound_of_chain_stands`.
-/
import AudioShader.Proofs.Source.Blanking
import AudioShader.Proofs.Source.Verbatim
import AudioShader.Proofs.Text.Letters

namespace AudioShader

/-! ### Balanced texts -/

/-- A character that ends a default if no bracket is open in it. -/
def endsDefault (c : Char) : Bool := c == ';' || c == ',' || Text.isAsciiBlank c

/-- Texts with balanced brackets and no line breaks. What ends a default stands
only `inside` of brackets. -/
inductive Bracketed : (inside : Bool) → List Char → Prop
  | nil {inside} : Bracketed inside []
  | char {inside c cs} : c ∉ ['(', '[', ')', ']', '\n', '\r'] →
      (inside = false → endsDefault c = false) → Bracketed inside cs → Bracketed inside (c :: cs)
  | group {inside opening closing inner cs} : opening ∈ ['(', '['] → closing ∈ [')', ']'] →
      Bracketed true inner → Bracketed inside cs →
      Bracketed inside (opening :: (inner ++ closing :: cs))

/-- A text goes on with what ends a default, or not at all. -/
def Delimited (cs : List Char) : Prop :=
  ∀ c ∈ cs.head?, endsDefault c = true ∨ c = ')' ∨ c = ']'

theorem delimited_nil : Delimited [] := nofun

namespace Bracketed

theorem append {inside : Bool} {a b : List Char} (ha : Bracketed inside a)
    (hb : Bracketed inside b) : Bracketed inside (a ++ b) := by
  induction ha with
  | nil => exact hb
  | char hc hends _ ih => exact .char hc hends (ih hb)
  | group ho hc hinner _ _ ih =>
    rw [List.cons_append, List.append_assoc, List.cons_append]
    exact .group ho hc hinner (ih hb)

end Bracketed

/-! ### How far a default goes -/

/-- One step of reading a default. -/
theorem bindDefault_cons (depth : Nat) (c : Char) (cs : List Char) : bindDefault depth (c :: cs) =
    if c = '(' ∨ c = '[' then c :: bindDefault (depth + 1) cs
    else if c = ')' ∨ c = ']' then
      match depth with
      | 0 => []
      | depth + 1 => c :: bindDefault depth cs
    else if c = '\n' ∨ c = '\r' then []
    else if depth = 0 ∧ (c = ';' ∨ c = ',' ∨ Text.isAsciiBlank c) then []
    else c :: bindDefault depth cs := by
  exact bindDefault.eq_def depth (c :: cs)

theorem bindDefault_opening {c : Char} (h : c ∈ ['(', '[']) (depth : Nat) (cs : List Char) :
    bindDefault depth (c :: cs) = c :: bindDefault (depth + 1) cs := by
  have hopen : c = '(' ∨ c = '[' := by simpa using h
  rw [bindDefault_cons, if_pos hopen]

theorem bindDefault_closing {c : Char} (h : c ∈ [')', ']']) (depth : Nat) (cs : List Char) :
    bindDefault (depth + 1) (c :: cs) = c :: bindDefault depth cs := by
  have hclose : c = ')' ∨ c = ']' := by simpa using h
  have hopen : ¬(c = '(' ∨ c = '[') := by rcases hclose with rfl | rfl <;> decide
  rw [bindDefault_cons, if_neg hopen, if_pos hclose]

theorem bindDefault_char {c : Char} (h : c ∉ ['(', '[', ')', ']', '\n', '\r']) {depth : Nat}
    (hgoes : depth = 0 → endsDefault c = false) (cs : List Char) :
    bindDefault depth (c :: cs) = c :: bindDefault depth cs := by
  have hends : ¬(depth = 0 ∧ (c = ';' ∨ c = ',' ∨ Text.isAsciiBlank c = true)) := by
    rintro ⟨hd, hc⟩
    have := hgoes hd
    simp_all [endsDefault]
  simp only [List.mem_cons, List.not_mem_nil, or_false, not_or] at h
  obtain ⟨h₁, h₂, h₃, h₄, h₅, h₆⟩ := h
  rw [bindDefault_cons, if_neg (not_or.2 ⟨h₁, h₂⟩), if_neg (not_or.2 ⟨h₃, h₄⟩),
    if_neg (not_or.2 ⟨h₅, h₆⟩), if_neg hends]

/-- No default begins with what ends one. -/
theorem bindDefault_delimited {cs : List Char} (h : Delimited cs) : bindDefault 0 cs = [] := by
  cases cs with
  | nil => rfl
  | cons c cs =>
    rw [bindDefault_cons]
    rcases h c rfl with hc | hc
    · have hopen : ¬(c = '(' ∨ c = '[') := by rintro (rfl | rfl) <;> cases hc
      have hends : 0 = 0 ∧ (c = ';' ∨ c = ',' ∨ Text.isAsciiBlank c = true) := by
        simpa [endsDefault, or_assoc] using hc
      rw [if_neg hopen, if_pos hends, ite_self, ite_self]
    · have hopen : ¬(c = '(' ∨ c = '[') := by rcases hc with rfl | rfl <;> decide
      rw [if_neg hopen, if_pos hc]

/-- A balanced text is part of the default that it stands in. -/
theorem bindDefault_bracketed {inside : Bool} {t : List Char} (h : Bracketed inside t) :
    ∀ {depth : Nat}, (inside = true → depth ≠ 0) → ∀ rest : List Char,
      bindDefault depth (t ++ rest) = t ++ bindDefault depth rest := by
  induction h with
  | nil => exact fun _ _ => rfl
  | @char inside c cs hc hends _ ih =>
    intro depth hdepth rest
    have hgoes : depth = 0 → endsDefault c = false := fun hd => by
      cases inside with
      | true => exact absurd hd (hdepth rfl)
      | false => exact hends rfl
    rw [List.cons_append, bindDefault_char hc hgoes, ih hdepth, List.cons_append]
  | @group inside opening closing inner cs ho hc _ _ ihinner ih =>
    intro depth hdepth rest
    rw [List.cons_append, List.append_assoc, List.cons_append, bindDefault_opening ho,
      ihinner fun _ => Nat.succ_ne_zero depth, bindDefault_closing hc, ih hdepth]
    simp only [List.cons_append, List.append_assoc]

/-! ### Chains of binds -/

/-- Binds, each the default of the one before, with a text or nothing as the
default of the last one, as they are written. -/
def bindChain (names : List String) (fallback : Option (List Char)) : List Char :=
  Text.joinWith ':' (names.map (fun name => '@' :: name.toList) ++ fallback.toList)

/-- What stands for a chain of binds: what the first bound name is bound to, else
the text at the end. -/
def chainText (bound : String → Option String) (names : List String) (hne : names ≠ [])
    (fallback : Option (List Char)) : Except LineFault (List Char) :=
  match names.findSome? bound, fallback with
  | some text, _ => .ok text.toList
  | none, some text => .ok text
  | none, none => .error (.unresolvedBind (names.getLast hne))

theorem Text.joinWith_cons {separator : Char} {part : List Char} {parts : List (List Char)}
    (h : parts ≠ []) :
    Text.joinWith separator (part :: parts) = part ++ separator :: Text.joinWith separator parts := by
  cases parts with
  | nil => exact absurd rfl h
  | cons _ _ => rfl

/-! ### Reading a chain -/

/-- What ends a default is no part of a name. -/
theorem isNameChar_of_endsDefault {c : Char} (h : endsDefault c = true ∨ c = ')' ∨ c = ']') :
    Text.isNameChar c = false ∧ c ≠ ':' := by
  simp only [endsDefault, Text.isAsciiBlank, Bool.or_eq_true, beq_iff_eq] at h
  rcases h with ((rfl | rfl) | (((rfl | rfl) | rfl) | rfl) | rfl) | rfl | rfl <;> decide

section Reading

variable {name : String} {t after : List Char}

/-- The name of a bind goes up to the first character that is no part of one. -/
theorem readBind?_name (hname : Text.isName name = true) {behind : List Char}
    (h : ∀ d ∈ behind.head?, Text.isNameChar d = false) :
    readBind? (name.toList ++ behind) = some (Bind.behind name behind) := by
  obtain ⟨c, cs, hcs, hstart⟩ := isName_cons hname
  obtain ⟨htake, hdrop⟩ := Text.takeWhile_run (isNameChar_of_isName hname) h
  rw [hcs] at htake hdrop ⊢
  rw [List.cons_append] at htake hdrop ⊢
  rw [readBind?_cons, if_pos hstart, htake, hdrop, ← hcs, String.ofList_toList]

/-- Behind its name a bind has a default, if a colon and something of it follow. -/
theorem readBind?_fallback (hname : Text.isName name = true) (hne : t ≠ [])
    (ht : Bracketed false t) (hafter : Delimited after) :
    readBind? (name.toList ++ ':' :: (t ++ after)) = some ⟨name, some t, after⟩ := by
  have hcolon : ∀ d ∈ (':' :: (t ++ after)).head?, Text.isNameChar d = false := by
    rintro _ ⟨⟩
    decide
  have hdefault : bindDefault 0 (t ++ after) = t := by
    rw [bindDefault_bracketed ht nofun, bindDefault_delimited hafter, List.append_nil]
  rw [readBind?_name hname hcolon]
  simp only [Bind.behind, hdefault]
  cases t with
  | nil => exact absurd rfl hne
  | cons d ds => rw [List.drop_left]

/-- In front of what would end a default a bind has none. -/
theorem readBind?_bare (hname : Text.isName name = true) (hafter : Delimited after) :
    readBind? (name.toList ++ after) = some ⟨name, none, after⟩ := by
  have hends : ∀ d ∈ after.head?, Text.isNameChar d = false :=
    fun d hd => (isNameChar_of_endsDefault (hafter d hd)).1
  have hcolon : ∀ more, after ≠ ':' :: more := by
    rintro more rfl
    exact (isNameChar_of_endsDefault (hafter ':' rfl)).2 rfl
  rw [readBind?_name hname hends]
  unfold Bind.behind
  split
  · exact absurd rfl (hcolon _)
  · rfl

end Reading

/-- A name is nothing that a default ends at. -/
theorem Bracketed.name {inside : Bool} : ∀ {cs rest : List Char},
    (∀ c ∈ cs, Text.isNameChar c = true) → Bracketed inside rest → Bracketed inside (cs ++ rest)
  | [], _, _, hrest => hrest
  | c :: cs, _, h, hrest => by
    have hc := h c (List.mem_cons_self ..)
    refine .char ?_ (fun _ => ?_) (.name (fun d hd => h d (List.mem_cons_of_mem _ hd)) hrest)
    · rintro hm
      simp only [List.mem_cons, List.not_mem_nil, or_false] at hm
      rcases hm with rfl | rfl | rfl | rfl | rfl | rfl <;> cases hc
    · by_contra hends
      rw [Bool.not_eq_false] at hends
      rw [(isNameChar_of_endsDefault (.inl hends)).1] at hc
      cases hc

theorem bindChain_singleton_none (name : String) : bindChain [name] none = '@' :: name.toList := rfl

theorem bindChain_singleton_some (name : String) (t : List Char) :
    bindChain [name] (some t) = '@' :: (name.toList ++ ':' :: t) := rfl

theorem bindChain_cons {name : String} {names : List String} (h : names ≠ [])
    (fallback : Option (List Char)) : bindChain (name :: names) fallback =
      '@' :: (name.toList ++ ':' :: bindChain names fallback) := by
  have hparts : names.map (fun name => '@' :: name.toList) ++ fallback.toList ≠ [] := by simp [h]
  rw [bindChain, List.map_cons, List.cons_append, Text.joinWith_cons hparts]
  rfl

/-- A text that stands for itself as a default. -/
structure IsFallback (t : List Char) : Prop where
  ne_nil : t ≠ []
  bracketed : Bracketed false t
  hashless : '#' ∉ t
  atless : '@' ∉ t

/-- A bind is scanned as what stands for it. -/
theorem scan_bind {cs : List Char} {b : Bind} (h : readBind? cs = some b)
    (bound : String → Option String) : scan bound .code ('@' :: cs) =
      (bindText bound b).bind fun text => prepend text (scan bound .code b.rest) := by
  have hlook : look .code ('@' :: cs) = .bind b := by
    rw [look, lookAtBind, h]
  rw [scan_look, hlook]

theorem bindText_of_bound {bound : String → Option String} {b : Bind} {text : String}
    (h : bound b.name = some text) : bindText bound b = .ok text.toList := by
  unfold bindText
  rw [h]

theorem bindText_of_unbound {bound : String → Option String} {b : Bind} {text : List Char}
    (h : bound b.name = none) (hfallback : b.fallback = some text) :
    bindText bound b = (scan bound .code text).map (·.1) := by
  unfold bindText
  rw [h, hfallback]

section Chains

variable {fallback : Option (List Char)}

/-- All of a chain is part of the default that it stands in. -/
theorem bracketed_bindChain (hfallback : ∀ t ∈ fallback, IsFallback t) :
    ∀ {names : List String}, names ≠ [] → (∀ name ∈ names, Text.isName name = true) →
      Bracketed false (bindChain names fallback)
  | [], hne, _ => absurd rfl hne
  | [name], _, hnames => by
    have hname := isNameChar_of_isName (hnames name (List.mem_cons_self ..))
    cases fallback with
    | none =>
      rw [bindChain_singleton_none, ← List.append_nil name.toList]
      exact .char (by decide) (fun _ => rfl) (.name hname .nil)
    | some t =>
      rw [bindChain_singleton_some]
      have ht := (hfallback t rfl).bracketed
      exact .char (by decide) (fun _ => rfl) (.name hname (.char (by decide) (fun _ => rfl) ht))
  | name :: next :: names, _, hnames => by
    have hname := isNameChar_of_isName (hnames name (List.mem_cons_self ..))
    have hrest := bracketed_bindChain hfallback (List.cons_ne_nil next names)
      fun n hn => hnames n (List.mem_cons_of_mem _ hn)
    rw [bindChain_cons (List.cons_ne_nil next names)]
    exact .char (by decide) (fun _ => rfl) (.name hname (.char (by decide) (fun _ => rfl) hrest))

theorem chainText_of_bound {bound : String → Option String} {name text : String}
    {names : List String} (h : bound name = some text) :
    chainText bound (name :: names) (List.cons_ne_nil name names) fallback = .ok text.toList := by
  unfold chainText
  rw [List.findSome?_cons, h]

theorem chainText_of_unbound {bound : String → Option String} {name : String} {names : List String}
    (h : bound name = none) (hne : names ≠ []) :
    chainText bound (name :: names) (List.cons_ne_nil name names) fallback =
      chainText bound names hne fallback := by
  unfold chainText
  rw [List.findSome?_cons, h, List.getLast_cons hne]

/-- At every level of a chain the bind goes as far as the chain does, and stands for
what the first bound name of it is bound to. -/
theorem readBind?_bindChain (bound : String → Option String)
    (hfallback : ∀ t ∈ fallback, IsFallback t) :
    ∀ {names : List String} (hne : names ≠ []), (∀ name ∈ names, Text.isName name = true) →
      ∀ {after : List Char}, Delimited after → ∃ cs b,
        bindChain names fallback ++ after = '@' :: cs ∧ readBind? cs = some b ∧ b.rest = after ∧
        bindText bound b = chainText bound names hne fallback
  | [], hne, _, _, _ => absurd rfl hne
  | [name], _, hnames, after, hafter => by
    have hname := hnames name (List.mem_cons_self ..)
    cases fallback with
    | none =>
      refine ⟨_, _, rfl, readBind?_bare hname hafter, rfl, ?_⟩
      unfold bindText chainText
      rw [List.findSome?_singleton]
      cases bound name <;> rfl
    | some t =>
      obtain ⟨hne, hbracketed, hhash, hat⟩ := hfallback t rfl
      have hchain : bindChain [name] (some t) ++ after = '@' :: (name.toList ++ ':' :: (t ++ after)) := by
        rw [bindChain_singleton_some, List.cons_append, List.append_assoc, List.cons_append]
      refine ⟨_, _, hchain, readBind?_fallback hname hne hbracketed hafter, rfl, ?_⟩
      have hquiet : Quiet .code t := quiet_of_notMem hhash hat
      obtain ⟨inComment, hscan⟩ := hquiet.scan_eq bound
      unfold bindText chainText
      rw [List.findSome?_singleton]
      cases bound name with
      | some text => rfl
      | none =>
        dsimp only
        rw [hscan]
        rfl
  | name :: next :: names, hne, hnames, after, hafter => by
    have hname := hnames name (List.mem_cons_self ..)
    have hmore : ∀ n ∈ next :: names, Text.isName n = true := fun n hn =>
      hnames n (List.mem_cons_of_mem _ hn)
    have hnext := List.cons_ne_nil next names
    have hbracketed := bracketed_bindChain hfallback hnext hmore
    obtain ⟨cs, b, hcs, hread, hrest, htext⟩ :=
      readBind?_bindChain bound hfallback hnext hmore delimited_nil
    rw [List.append_nil] at hcs
    have hdefault : bindChain (next :: names) fallback ≠ [] := by
      rw [hcs]
      exact List.cons_ne_nil _ _
    have hchain : bindChain (name :: next :: names) fallback ++ after =
        '@' :: (name.toList ++ ':' :: (bindChain (next :: names) fallback ++ after)) := by
      rw [bindChain_cons hnext, List.cons_append, List.append_assoc, List.cons_append]
    refine ⟨_, _, hchain, readBind?_fallback hname hdefault hbracketed hafter, rfl, ?_⟩
    cases hbound : bound name with
    | some text => rw [chainText_of_bound hbound, bindText_of_bound hbound]
    | none =>
      have hscan : scan bound .code (bindChain (next :: names) fallback) =
          (chainText bound (next :: names) hnext fallback).bind fun text => .ok (text ++ [], false) := by
        rw [hcs, scan_bind hread, htext, hrest, scan.eq_1]
        rfl
      rw [chainText_of_unbound hbound hnext, bindText_of_unbound hbound rfl, hscan]
      cases chainText bound (next :: names) hnext fallback with
      | error fault => rfl
      | ok text => exact congrArg Except.ok (List.append_nil text)

end Chains

/-- **A chain of binds stands for what the first bound name in it is bound to.**
Whatever names are bound to, a chain of binds in which each is the default of the
one before is read up to what ends it, and no further. In its place stands what the
first bound name is bound to; if none of the names is bound, the text at the end of
the chain, as it is; and if there is none either, the last name is refused. -/
theorem first_bound_of_chain_stands (bound : String → Option String) (names : List String)
    (hne : names ≠ []) (hnames : ∀ name ∈ names, Text.isName name = true)
    (fallback : Option (List Char)) (hfallback : ∀ t ∈ fallback, IsFallback t)
    (after : List Char) (hafter : Delimited after) :
    (∃ cs b, bindChain names fallback ++ after = '@' :: cs ∧ readBind? cs = some b ∧ b.rest = after) ∧
      scan bound .code (bindChain names fallback ++ after) =
        (chainText bound names hne fallback).bind fun text => prepend text (scan bound .code after) := by
  obtain ⟨cs, b, hcs, hread, hrest, htext⟩ := readBind?_bindChain bound hfallback hne hnames hafter
  refine ⟨⟨cs, b, hcs, hread, hrest⟩, ?_⟩
  rw [hcs, scan_bind hread, htext, hrest]

/-- The default `vec4(0, 1)`. -/
def vectorDefault : List Char := "vec4(0, 1)".toList

theorem isFallback_vectorDefault : IsFallback vectorDefault where
  ne_nil := by decide
  bracketed := by
    have hinner : Bracketed true "0, 1".toList :=
      .char (by decide) nofun (.char (by decide) nofun (.char (by decide) nofun
        (.char (by decide) nofun .nil)))
    have hname : ∀ c ∈ "vec4".toList, Text.isNameChar c = true := List.all_eq_true.1 (by decide)
    exact .name hname (.group (by decide) (by decide) hinner .nil)
  hashless := by decide
  atless := by decide

/-- The chain `@fg:@bg:vec4(0, 1)` where `bg` is bound and where no name is, and
`@fg:@bg`, which is refused. -/
theorem chain_background :
    scan (fun name => if name = "bg" then some "_IN_bg" else none) .code "@fg:@bg:vec4(0, 1);".toList =
        .ok ("_IN_bg;".toList, false) ∧
      scan (fun _ => none) .code "@fg:@bg:vec4(0, 1);".toList = .ok ("vec4(0, 1);".toList, false) ∧
      scan (fun _ => none) .code "@fg:@bg;".toList = .error (.unresolvedBind "bg") := by
  have hnames : ∀ name ∈ ["fg", "bg"], Text.isName name = true := by decide
  have hvector : ∀ t ∈ some vectorDefault, IsFallback t := by
    rintro _ ⟨⟩
    exact isFallback_vectorDefault
  have hafter : Delimited ";".toList := by
    rintro _ ⟨⟩
    exact .inl rfl
  have hchain (bound : String → Option String) (fallback : Option (List Char))
      (h : ∀ t ∈ fallback, IsFallback t) :=
    (first_bound_of_chain_stands bound ["fg", "bg"] (List.cons_ne_nil _ _) hnames fallback h _ hafter).2
  refine ⟨?_, ?_, ?_⟩
  · exact (hchain _ _ hvector).trans (by decide +kernel)
  · exact (hchain _ _ hvector).trans (by decide +kernel)
  · exact (hchain _ none nofun).trans (by decide)

end AudioShader
