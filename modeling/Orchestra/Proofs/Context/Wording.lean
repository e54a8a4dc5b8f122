import Mathlib.Data.List.Nodup
import Orchestra.Context.Prompt
import Orchestra.Proofs.Writing

/-!
# Orchestra.Proofs.Context.Wording — what a context says in words

Each facet has lines of its own (`Says`), and the words of a context are those of its facets, one below the other, in a
fixed order (`prompt_worded`).  A context can be worded unless its place or one of its preferences cannot be written
(`prompt_ok_iff`).
-/

namespace Orchestra

/-- A facet with nothing to say: it is not set, or a text or a mapping without a content. -/
inductive Silent : Change → Prop
  | language {s : Option String} (h : s = none ∨ s = some "") : Silent (.language s)
  | framework {s : Option String} (h : s = none ∨ s = some "") : Silent (.framework s)
  | projectType {s : Option String} (h : s = none ∨ s = some "") : Silent (.projectType s)
  | workspace : Silent (.workspace none)
  | file : Silent (.file none)
  | selection : Silent (.selection none)
  | preferences {o : Option Object} (h : o = none ∨ o = some []) : Silent (.preferences o)
  | unknown {name : String} : Silent (.unknown name)

/-- The lines of a facet. -/
inductive Says (written : Writing) : Change → List String → Prop
  | silent {facet : Change} (h : Silent facet) : Says written facet []
  | language {s : String} (ne : s ≠ "") : Says written (.language (some s)) ["Language: " ++ s]
  | framework {s : String} (ne : s ≠ "") : Says written (.framework (some s)) ["Framework: " ++ s]
  | projectType {s : String} (ne : s ≠ "") : Says written (.projectType (some s)) ["Project type: " ++ s]
  | workspace {w : Workspace} {dependencies branch : List String}
      (hdependencies : w.dependencies = [] ∧ dependencies = [] ∨
        w.dependencies ≠ [] ∧ dependencies = ["Dependencies: " ++ ", ".intercalate w.dependencies])
      (hbranch : w.git = none ∧ branch = [] ∨ ∃ g, w.git = some g ∧ branch = ["Git branch: " ++ g.branch]) :
      Says written (.workspace (some w)) (["Workspace root: " ++ w.root] ++ dependencies ++ branch)
  | file {f : FileContext} :
      Says written (.file (some f)) ["Current file: " ++ f.path ++ " (" ++ f.language ++ ")"]
  /-- The place of the selection, and its content in a fence. -/
  | selection {s : Selection} {line column : String} (hline : written (.number (.int s.range.start.line)) = .ok line)
      (hcolumn : written (.number (.int s.range.start.column)) = .ok column) :
      Says written (.selection (some s))
        ["Selection in " ++ s.path ++ " at line " ++ line ++ ", column " ++ column ++ ":",
          "```" ++ s.language ++ "\n" ++ s.content ++ "\n```"]
  /-- The preferences, ordered by name. -/
  | preferences {o sorted : Object} {texts : List String} (ne : o ≠ []) (perm : sorted.Perm o)
      (ordered : sorted.Pairwise fun a b => a.1 ≤ b.1)
      (htexts : List.Forall₂ (fun e s => written e.2 = .ok s) sorted texts) :
      Says written (.preferences (some o))
        ["User preferences: " ++ ", ".intercalate (List.zipWith (fun e s => e.1 ++ "=" ++ s) sorted texts)]

/-- The values that are written of a facet: where a selection starts, and preferences. -/
def Change.writes : Change → List Value
  | .selection (some s) => [.number (.int s.range.start.line), .number (.int s.range.start.column)]
  | .preferences (some o) => o.map Prod.snd
  | _ => []

namespace Context

variable {written : Writing} {c : Context}

/-- The values that are written of a context. -/
def writes (c : Context) : List Value := c.worded.flatMap Change.writes

/-! ### Facet by facet -/

theorem labelled_cases (label : String) (content : Option String) :
    (content = none ∨ content = some "") ∧ labelled label content = [] ∨
      ∃ s, s ≠ "" ∧ content = some s ∧ labelled label content = [label ++ s] := by
  cases content with
  | none => exact .inl ⟨.inl rfl, rfl⟩
  | some s =>
    by_cases hs : s = ""
    · subst hs
      exact .inl ⟨.inr rfl, rfl⟩
    · exact .inr ⟨s, hs, rfl, by simp [labelled, hs]⟩

theorem says_workspaceLines (w : Workspace) : Says written (.workspace (some w)) (workspaceLines w) := by
  have hdependencies : w.dependencies = [] ∧
        (if w.dependencies.isEmpty then [] else ["Dependencies: " ++ ", ".intercalate w.dependencies]) = [] ∨
      w.dependencies ≠ [] ∧
        (if w.dependencies.isEmpty then [] else ["Dependencies: " ++ ", ".intercalate w.dependencies]) =
          ["Dependencies: " ++ ", ".intercalate w.dependencies] := by
    cases w.dependencies <;> simp
  have hbranch : w.git = none ∧ (w.git.map fun g => "Git branch: " ++ g.branch).toList = [] ∨
      ∃ g, w.git = some g ∧ (w.git.map fun g => "Git branch: " ++ g.branch).toList = ["Git branch: " ++ g.branch] := by
    cases w.git <;> simp
  exact .workspace hdependencies hbranch

theorem says_selectionLines {s : Selection} {lines : List String} (h : selectionLines written s = .ok lines) :
    Says written (.selection (some s)) lines := by
  obtain ⟨line, hline, h⟩ := bind_eq_ok h
  obtain ⟨column, hcolumn, h⟩ := bind_eq_ok h
  cases h
  exact .selection hline hcolumn

theorem byName_ordered (o : Object) : (byName o).Pairwise fun a b => a.1 ≤ b.1 := by
  have htrans (a b c : String × Value) (hab : decide (a.1 ≤ b.1) = true) (hbc : decide (b.1 ≤ c.1) = true) :
      decide (a.1 ≤ c.1) = true := by
    simp only [decide_eq_true_eq] at hab hbc ⊢
    exact String.le_trans hab hbc
  have htotal (a b : String × Value) : (decide (a.1 ≤ b.1) || decide (b.1 ≤ a.1)) = true := by
    simp only [Bool.or_eq_true, decide_eq_true_eq]
    exact String.le_total a.1 b.1
  exact (List.pairwise_mergeSort htrans htotal o).imp fun h => by simpa using h

/-- Preferences can be written if their values can. -/
theorem mapM_preference {o : Object} {entries : List String} (h : o.mapM (preference written) = .ok entries) :
    ∃ texts : List String, List.Forall₂ (fun e s => written e.2 = .ok s) o texts ∧
      entries = List.zipWith (fun e s => e.1 ++ "=" ++ s) o texts := by
  rw [mapM_eq_ok] at h
  induction h with
  | nil => exact ⟨[], .nil, rfl⟩
  | @cons e entry o entries hentry hrest ih =>
    obtain ⟨texts, htexts, rfl⟩ := ih
    obtain ⟨s, hs, rfl⟩ := map_eq_ok hentry
    exact ⟨s :: texts, .cons hs htexts, rfl⟩

theorem says_preferencesLines {o : Object} {lines : List String} (hne : o ≠ [])
    (h : preferencesLines written o = .ok lines) : Says written (.preferences (some o)) lines := by
  rw [preferencesLines, if_neg (by simpa using hne)] at h
  obtain ⟨entries, hentries, rfl⟩ := map_eq_ok h
  obtain ⟨texts, htexts, rfl⟩ := mapM_preference hentries
  exact .preferences hne (List.mergeSort_perm _ _) (byName_ordered _) htexts

/-- **One facet.** -/
theorem says_facetLines {facet : Change} {lines : List String} (h : facetLines written facet = .ok lines) :
    Says written facet lines := by
  cases facet with
  | language s =>
    cases h
    obtain ⟨hs, h⟩ | ⟨s, hs, rfl, h⟩ := labelled_cases "Language: " s
    · rw [h]
      exact .silent (.language hs)
    · rw [h]
      exact .language hs
  | framework s =>
    cases h
    obtain ⟨hs, h⟩ | ⟨s, hs, rfl, h⟩ := labelled_cases "Framework: " s
    · rw [h]
      exact .silent (.framework hs)
    · rw [h]
      exact .framework hs
  | projectType s =>
    cases h
    obtain ⟨hs, h⟩ | ⟨s, hs, rfl, h⟩ := labelled_cases "Project type: " s
    · rw [h]
      exact .silent (.projectType hs)
    · rw [h]
      exact .projectType hs
  | workspace w =>
    cases h
    cases w with
    | none => exact .silent .workspace
    | some w => exact says_workspaceLines w
  | file f =>
    cases h
    cases f with
    | none => exact .silent .file
    | some f => exact .file
  | selection s =>
    cases s with
    | none =>
      cases h
      exact .silent .selection
    | some s => exact says_selectionLines h
  | preferences o =>
    cases o with
    | none =>
      cases h
      exact .silent (.preferences (.inl rfl))
    | some o =>
      by_cases ho : o = []
      · subst ho
        cases h
        exact .silent (.preferences (.inr rfl))
      · exact says_preferencesLines ho h
  | unknown name =>
    cases h
    exact .silent .unknown

/-- A facet cannot be worded only over a value that cannot be written. -/
theorem facetLines_eq_error {facet : Change} {f : Fault} (h : facetLines written facet = .error f) :
    ∃ v ∈ facet.writes, written v = .error f := by
  cases facet with
  | language s | framework s | projectType s | workspace w | file x | unknown name => cases h
  | selection s =>
    cases s with
    | none => cases h
    | some s =>
      have h : selectionLines written s = .error f := h
      obtain hline | ⟨line, -, h⟩ := bind_eq_error h
      · exact ⟨_, List.mem_cons_self, hline⟩
      · obtain hcolumn | ⟨column, -, h⟩ := bind_eq_error h
        · exact ⟨_, List.mem_cons_of_mem _ List.mem_cons_self, hcolumn⟩
        · cases h
  | preferences o =>
    cases o with
    | none => cases h
    | some o =>
      have h : preferencesLines written o = .error f := h
      unfold preferencesLines at h
      split at h
      · cases h
      · obtain ⟨e, hmem, he⟩ := mapM_eq_error (map_eq_error h)
        exact ⟨e.2, List.mem_map_of_mem ((List.mergeSort_perm _ _).mem_iff.mp hmem), map_eq_error he⟩

/-- What has been worded could be written. -/
theorem writable_of_worded {facet : Change} {lines : List String} (h : Says written facet lines) :
    ∀ v ∈ facet.writes, ∃ s, written v = .ok s := by
  cases h with
  | silent h =>
    cases h with
    | preferences ho => rcases ho with rfl | rfl <;> exact fun v hv => nomatch hv
    | _ => exact fun v hv => nomatch hv
  | selection hline hcolumn =>
    intro v hv
    rcases List.mem_pair.mp hv with rfl | rfl
    · exact ⟨_, hline⟩
    · exact ⟨_, hcolumn⟩
  | @preferences o sorted texts ne perm ordered htexts =>
    have hall := htexts.imp fun e s h => show (∃ s, written e.2 = .ok s) ∧ written e.2 = .ok s from ⟨⟨s, h⟩, h⟩
    intro v hv
    obtain ⟨e, he, rfl⟩ := List.mem_map.mp hv
    exact ((List.forall₂_and_left _ _).mp hall).1 e (perm.mem_iff.mpr he)
  | _ => exact fun v hv => nomatch hv

/-! ### All facets -/

/-- **The words of a context** are the lines of its facets, one below the other. -/
theorem prompt_worded {words : String} (h : c.prompt written = .ok words) :
    ∃ lines, List.Forall₂ (Says written) c.worded lines ∧ words = "\n".intercalate lines.flatten := by
  obtain ⟨all, hall, rfl⟩ := map_eq_ok h
  obtain ⟨lines, hlines, rfl⟩ := map_eq_ok hall
  exact ⟨lines, (mapM_eq_ok.mp hlines).imp fun _ _ => says_facetLines, rfl⟩

/-- A context cannot be worded only over a value that cannot be written. -/
theorem prompt_eq_error {f : Fault} (h : c.prompt written = .error f) : ∃ v ∈ c.writes, written v = .error f := by
  obtain ⟨facet, hfacet, hf⟩ := mapM_eq_error (map_eq_error (map_eq_error h))
  obtain ⟨v, hv, hwritten⟩ := facetLines_eq_error hf
  exact ⟨v, List.mem_flatMap.mpr ⟨facet, hfacet, hv⟩, hwritten⟩

/-- **A context can be worded** if all that is written of it can be. -/
theorem prompt_ok_iff : (∃ words, c.prompt written = .ok words) ↔ ∀ v ∈ c.writes, ∃ s, written v = .ok s := by
  constructor
  · rintro ⟨words, h⟩ v hv
    obtain ⟨lines, hall, -⟩ := prompt_worded h
    have hall := hall.imp fun facet ls h => show _ ∧ Says written facet ls from ⟨writable_of_worded h, h⟩
    obtain ⟨facet, hfacet, hv⟩ := List.mem_flatMap.mp hv
    exact ((List.forall₂_and_left _ _).mp hall).1 facet hfacet v hv
  · intro h
    cases hp : c.prompt written with
    | ok words => exact ⟨words, rfl⟩
    | error f =>
      obtain ⟨v, hv, hf⟩ := prompt_eq_error hp
      obtain ⟨s, hs⟩ := h v hv
      cases hf.symm.trans hs

/-! ### One reading -/

/-- A value is written in one way only. -/
theorem texts_unique {o : Object} {texts texts' : List String} (h : List.Forall₂ (fun e s => written e.2 = .ok s) o texts)
    (h' : List.Forall₂ (fun e s => written e.2 = .ok s) o texts') : texts = texts' := by
  induction h generalizing texts' with
  | nil =>
    cases h'
    rfl
  | cons hs _ ih =>
    cases h' with
    | cons hs' htexts' =>
      cases hs.symm.trans hs'
      rw [ih htexts']

/-- Preferences by distinct names are ordered in one way only. -/
theorem sorted_unique {o sorted sorted' : Object} (hnames : o.keys.Nodup) (perm : sorted.Perm o) (perm' : sorted'.Perm o)
    (ordered : sorted.Pairwise fun a b => a.1 ≤ b.1) (ordered' : sorted'.Pairwise fun a b => a.1 ≤ b.1) :
    sorted = sorted' := by
  refine List.Perm.eq_of_pairwise (fun a b ha hb hab hba => ?_) ordered ordered' (perm.trans perm'.symm)
  exact List.inj_on_of_nodup_map hnames (perm.mem_iff.mp ha) (perm'.mem_iff.mp hb) (String.le_antisymm hab hba)

end Context

/-- A facet with nothing to say says nothing. -/
theorem Silent.eq_nil {written : Writing} {facet : Change} {lines : List String} (h : Silent facet)
    (h' : Says written facet lines) : lines = [] := by
  cases h' with
  | silent _ => rfl
  | language ne | framework ne | projectType ne => cases h; simp_all
  | workspace _ _ | file | selection _ _ => cases h
  | preferences ne _ _ _ => cases h; simp_all

/-- **A facet says one thing only**, where the names of its preferences are distinct. -/
theorem Says.unique {written : Writing} {facet : Change} {lines lines' : List String} (h : Says written facet lines)
    (h' : Says written facet lines') (hnames : ∀ o, facet = .preferences (some o) → o.keys.Nodup) : lines = lines' := by
  cases h' with
  | silent hsilent => exact hsilent.eq_nil h
  | language _ | framework _ | projectType _ =>
    cases h with
    | silent hsilent => cases hsilent; simp_all
    | _ => rfl
  | file =>
    cases h with
    | silent hsilent => cases hsilent
    | file => rfl
  | workspace hdependencies' hbranch' =>
    cases h with
    | silent hsilent => cases hsilent
    | workspace hdependencies hbranch => grind
  | selection hline' hcolumn' =>
    cases h with
    | silent hsilent => cases hsilent
    | selection hline hcolumn =>
      cases hline.symm.trans hline'
      cases hcolumn.symm.trans hcolumn'
      rfl
  | preferences ne' perm' ordered' htexts' =>
    cases h with
    | silent hsilent => exact (hsilent.eq_nil (.preferences ne' perm' ordered' htexts')).symm
    | preferences ne perm ordered htexts =>
      obtain rfl := Context.sorted_unique (hnames _ rfl) perm perm' ordered ordered'
      rw [Context.texts_unique htexts htexts']

/-- Several facets say one thing only. -/
theorem says_unique {written : Writing} {facets : List Change} {lines lines' : List (List String)}
    (h : List.Forall₂ (Says written) facets lines) (h' : List.Forall₂ (Says written) facets lines')
    (hnames : ∀ o, .preferences (some o) ∈ facets → o.keys.Nodup) : lines = lines' := by
  induction h generalizing lines' with
  | nil =>
    cases h'
    rfl
  | cons hworded _ ih =>
    cases h' with
    | cons hworded' hrest' =>
      rw [hworded.unique hworded' fun o ho => hnames o (ho ▸ List.mem_cons_self),
        ih hrest' fun o ho => hnames o (List.mem_cons_of_mem _ ho)]

/-- A context in which one facet is not set, and one has nothing to say. -/
def surroundings : Context where
  workspace := some ⟨"/w", [], ["numpy", "attrs"], [], some ⟨"main", "4f1c", none, []⟩⟩
  file := some ⟨"a.py", "x = 1\ny = 2\n", "python", [], [], []⟩
  selection := some ⟨"a.py", ⟨⟨3, 0⟩, ⟨3, 5⟩⟩, "x = 1", [], "", "python"⟩
  language := some "python"
  projectType := some ""
  preferences := some [("tabs", .number (.int 4)), ("font", .text "mono"), ("rulers", .list [.null, .text "soft"])]

/-- The lines of the surroundings, facet by facet. -/
theorem surroundings_worded : List.Forall₂ (Says Value.inSentence) surroundings.worded
    [["Language: python"], [], [], ["Workspace root: /w", "Dependencies: numpy, attrs", "Git branch: main"],
      ["Current file: a.py (python)"], ["Selection in a.py at line 3, column 0:", "```python\nx = 1\n```"],
      ["User preferences: font=mono, rulers=[None, 'soft'], tabs=4"]] := by
  have hsorted := List.perm_append_singleton ("tabs", Value.number (.int 4))
    [("font", .text "mono"), ("rulers", .list [.null, .text "soft"])]
  have hfour : Value.inSentence (.number (.int 4)) = .ok "4" := Value.inSentence_int (by decide +kernel)
  have htexts : List.Forall₂ (fun (e : String × Value) s => Value.inSentence e.2 = .ok s)
      [("font", .text "mono"), ("rulers", .list [.null, .text "soft"]), ("tabs", .number (.int 4))]
      ["mono", "[None, 'soft']", "4"] := .cons rfl (.cons rfl (.cons hfour .nil))
  exact .cons (.language (by decide)) (.cons (.silent (.framework (.inl rfl))) (.cons (.silent (.projectType (.inr rfl)))
    (.cons (.workspace (.inr ⟨by decide, rfl⟩) (.inr ⟨_, rfl, rfl⟩)) (.cons .file (.cons
      (.selection (Value.inSentence_int (by decide +kernel)) (Value.inSentence_int (by decide +kernel)))
      (.cons (.preferences (by simp) hsorted (by decide) htexts) .nil))))))

/-- The words of the surroundings. -/
theorem surroundings_words {lines : List (List String)}
    (h : List.Forall₂ (Says Value.inSentence) surroundings.worded lines) :
    "\n".intercalate lines.flatten = "Language: python\nWorkspace root: /w\nDependencies: numpy, attrs\n" ++
      "Git branch: main\nCurrent file: a.py (python)\nSelection in a.py at line 3, column 0:\n```python\nx = 1\n```\n" ++
      "User preferences: font=mono, rulers=[None, 'soft'], tabs=4" := by
  rw [says_unique h surroundings_worded (by simp [Context.worded, surroundings, Object.keys])]
  decide +kernel

/-! ### Requests -/

variable {written : Writing} {context : Context} {message system : String}

/-- **A request** is what the model is told to be, with the words of the context if there are any, and what the user
says. -/
theorem chatMessages_worded {messages : List (String × String)}
    (h : chatMessages written message context system = .ok messages) :
    ∃ lines, List.Forall₂ (Says written) context.worded lines ∧
      messages = [("system", if "\n".intercalate lines.flatten = "" then system
          else system ++ "\n\nContext:\n" ++ "\n".intercalate lines.flatten), ("user", message)] := by
  obtain ⟨words, hwords, h⟩ := bind_eq_ok h
  obtain ⟨lines, hworded, rfl⟩ := Context.prompt_worded hwords
  cases h
  exact ⟨lines, hworded, rfl⟩

theorem chatMessages_eq_error {f : Fault} (h : chatMessages written message context system = .error f) :
    ∃ v ∈ context.writes, written v = .error f := by
  obtain hwords | ⟨words, -, h⟩ := bind_eq_error h
  · exact Context.prompt_eq_error hwords
  · cases h

/-- **A request can be made** if all that is written of the context can be. -/
theorem chatMessages_ok_iff : (∃ messages, chatMessages written message context system = .ok messages) ↔
    ∀ v ∈ context.writes, ∃ s, written v = .ok s := by
  rw [← Context.prompt_ok_iff]
  unfold chatMessages
  cases context.prompt written <;> simp [bind, Except.bind, pure, Except.pure]

end Orchestra
