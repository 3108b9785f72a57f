/-
**It does not matter where a rule is turned off.**

Rules are turned off by a variable of the environment, which holds a list with commas, and by
options of a command.  A list may have any blanks around its items and any empty pieces between
them: it is read as its items, in their order.  What the variable and the options name together
selects the rules, and only the set of the names counts.

Main definitions:

* `LineLint.Settings.IsItem` — a text that can be an item of a list;
* `LineLint.Settings.Pads`, `LineLint.Settings.Lists` — **a text lists some items**, with anything
  around them that does not count;
* `LineLint.Command.rulesIn` — the rules of a run: the settings are read, and then the rules
  selected.

Main results:

* `LineLint.Text.stripChars_padded`, `LineLint.Text.stripChars_of_blank` — blanks are stripped;
* `LineLint.Settings.items_of_lists`, `LineLint.Settings.isItem_of_mem_items` — reading a list
  gives its items, and nothing but items;
* `LineLint.Settings.lists_join` — items with commas between them are a list of them;
* `LineLint.Command.rulesIn_congr` — **only the set of the names counts**.
-/

import LineLint.Command.Run
import LineLint.Proofs.Rules.Faults
import Mathlib.Data.List.DropRight

set_option relaxedAutoImplicit false
set_option autoImplicit false

namespace LineLint

/-! ### Blanks at the ends -/

namespace Text

variable {cs before after : List Char}

theorem stripChars_eq (cs : List Char) :
    stripChars cs = (cs.dropWhile isBlank).rdropWhile isBlank := rfl

/-- Nothing is left of blanks. -/
theorem stripChars_of_blank (h : ∀ c ∈ cs, isBlank c = true) : stripChars cs = [] := by
  rw [stripChars_eq, List.dropWhile_eq_nil_iff.2 h, List.rdropWhile_nil]

/-- What begins and ends with other characters is left of the blanks around it. -/
theorem stripChars_padded (hbefore : ∀ c ∈ before, isBlank c = true)
    (hafter : ∀ c ∈ after, isBlank c = true) (hhead : ∀ c ∈ cs.head?, isBlank c = false)
    (hlast : ∀ c ∈ cs.getLast?, isBlank c = false) :
    stripChars (before ++ cs ++ after) = cs := by
  cases cs with
  | nil =>
      refine stripChars_of_blank fun c hc => ?_
      rcases List.mem_append.1 hc with hc | hc
      · exact hbefore c (by simpa using hc)
      · exact hafter c hc
  | cons first rest =>
      have hfirst : isBlank first = false := hhead first rfl
      have hdrop : (before ++ (first :: rest) ++ after).dropWhile isBlank =
          first :: rest ++ after := by
        rw [List.append_assoc, List.dropWhile_append_of_pos hbefore, List.cons_append,
          List.dropWhile_cons_of_neg (by simp [hfirst])]
      have hkeep : (first :: rest).rdropWhile isBlank = first :: rest := by
        refine List.rdropWhile_eq_self_iff.2 fun hne => ?_
        have hend := hlast _ (List.getLast?_eq_getLast_of_ne_nil hne)
        simp [hend]
      rw [stripChars_eq, hdrop]
      -- the blanks behind are the first ones from the other side
      rw [List.rdropWhile, List.reverse_append,
        List.dropWhile_append_of_pos fun c hc => hafter c (List.mem_reverse.1 hc)]
      exact hkeep

theorem stripChars_sublist (cs : List Char) : (stripChars cs).Sublist cs := by
  rw [stripChars_eq]
  exact (List.rdropWhile_prefix _ _).sublist.trans (List.dropWhile_sublist _)

theorem head?_stripChars : ∀ c ∈ (stripChars cs).head?, isBlank c = false := by
  intro c hc
  have hfront : stripChars cs <+: cs.dropWhile isBlank := List.rdropWhile_prefix _ _
  obtain ⟨rest, hrest⟩ := List.head?_eq_some_iff.1 hc
  rw [hrest] at hfront
  obtain ⟨more, hmore⟩ := hfront
  have hnot := List.head?_dropWhile_not isBlank cs
  rw [← hmore] at hnot
  simpa using hnot

theorem getLast?_stripChars : ∀ c ∈ (stripChars cs).getLast?, isBlank c = false := by
  intro c hc
  have hne : stripChars cs ≠ [] := by
    intro hnil
    rw [hnil] at hc
    cases hc
  have hnot := List.rdropWhile_last_not isBlank _ hne
  rw [List.getLast?_eq_getLast_of_ne_nil hne] at hc
  cases hc
  exact Bool.eq_false_of_not_eq_true hnot

end Text

/-! ### Lists with commas -/

namespace Settings

variable {raw item : String} {pieces : List (List Char)} {items' : List String}

/-- A text that can be an item of a list: not empty, without a comma, and without a blank at either
end. -/
structure IsItem (item : String) : Prop where
  ne_empty : item ≠ ""
  comma_not_mem : ',' ∉ item.toList
  head : ∀ c ∈ item.toList.head?, Text.isBlank c = false
  last : ∀ c ∈ item.toList.getLast?, Text.isBlank c = false

/-- Pieces that hold items, each with blanks around it, or nothing but blanks. -/
inductive Pads : List (List Char) → List String → Prop
  | nil : Pads [] []
  | blank {piece : List Char} {pieces : List (List Char)} {items : List String} :
      (∀ c ∈ piece, Text.isBlank c = true) → Pads pieces items → Pads (piece :: pieces) items
  | item {before after : List Char} {item : String} {pieces : List (List Char)}
      {items : List String} : (∀ c ∈ before, Text.isBlank c = true) →
      (∀ c ∈ after, Text.isBlank c = true) → IsItem item → Pads pieces items →
      Pads ((before ++ item.toList ++ after) :: pieces) (item :: items)

/-- A text lists some items: there are commas between pieces that hold them. -/
def Lists (raw : String) (items : List String) : Prop :=
  ∃ pieces, Pads pieces items ∧ raw = String.ofList (Text.joinChars [','] pieces)

theorem Pads.comma_not_mem (h : Pads pieces items') : ∀ piece ∈ pieces, ',' ∉ piece := by
  have hblank {cs : List Char} (hcs : ∀ c ∈ cs, Text.isBlank c = true) : ',' ∉ cs := by
    intro hcomma
    exact absurd (hcs _ hcomma) (by decide)
  induction h with
  | nil => exact nofun
  | blank hpiece _ ih => exact List.forall_mem_cons.2 ⟨hblank hpiece, ih⟩
  | item hbefore hafter hitem _ ih =>
      refine List.forall_mem_cons.2 ⟨?_, ih⟩
      simp [hblank hbefore, hblank hafter, hitem.comma_not_mem]

/-- The items of some pieces, whatever blanks are in them. -/
theorem Pads.filterMap_eq (h : Pads pieces items') :
    (pieces.map Text.stripChars).filterMap (fun item =>
      if item.isEmpty then none else some (String.ofList item)) = items' := by
  induction h with
  | nil => rfl
  | blank hpiece _ ih =>
      rw [List.map_cons, Text.stripChars_of_blank hpiece]
      exact ih
  | @item before after item pieces items hbefore hafter hitem _ ih =>
      have hne : item.toList.isEmpty = false := by simpa using hitem.ne_empty
      rw [List.map_cons, Text.stripChars_padded hbefore hafter hitem.head hitem.last,
        List.filterMap_cons, ih, hne]
      simp

/-- Reading a list gives its items. -/
theorem items_of_lists (h : Lists raw items') : items raw = items' := by
  obtain ⟨pieces, hpads, rfl⟩ := h
  rw [items, String.toList_ofList]
  cases pieces with
  | nil =>
      cases hpads
      rfl
  | cons piece pieces =>
      rw [Text.splitAt_joinChars (by simp) hpads.comma_not_mem]
      exact hpads.filterMap_eq

/-- Whatever is read, nothing but items comes out. -/
theorem isItem_of_mem_items (h : item ∈ items raw) : IsItem item := by
  obtain ⟨cs, hcs, hitem⟩ := List.mem_filterMap.1 h
  obtain ⟨piece, hpiece, rfl⟩ := List.mem_map.1 hcs
  split at hitem
  · cases hitem
  · next hne =>
      cases hitem
      have hcomma : ',' ∉ Text.stripChars piece := fun hmem =>
        Text.not_mem_of_mem_splitAt hpiece ((Text.stripChars_sublist piece).subset hmem)
      refine ⟨by simpa using hne, ?_, ?_, ?_⟩
      · rwa [String.toList_ofList]
      · rw [String.toList_ofList]
        exact Text.head?_stripChars
      · rw [String.toList_ofList]
        exact Text.getLast?_stripChars

/-- Items with commas between them are a list of them. -/
theorem lists_join (h : ∀ item ∈ items', IsItem item) : Lists (Text.join "," items') items' := by
  refine ⟨items'.map String.toList, ?_, rfl⟩
  induction items' with
  | nil => exact .nil
  | cons item items ih =>
      obtain ⟨hitem, hitems⟩ := List.forall_mem_cons.1 h
      have hpads : Pads (([] ++ item.toList ++ []) :: items.map String.toList) (item :: items) :=
        .item (by simp) (by simp) hitem (ih hitems)
      simpa using hpads

end Settings

/-! ### The rules of a run -/

namespace Command

/-- The rules of a run: the settings are read from the environment, and then the rules of the
catalogue are selected, without those that the settings or the options turn off. -/
def rulesIn (world : World) (disable : List String) : Except Complaint RuleSet :=
  match Settings.load world.environment with
  | .error error => .error (.failure error.message)
  | .ok settings => selectRules world settings disable

variable {world : World} {environment : Environment}

/-- Only the names that are turned off depend on the variable for them. -/
theorem load_of_others
    (h : ∀ key, key ≠ disableVariable → environment.lookup key = world.environment.lookup key) :
    Settings.load environment = (Settings.load world.environment).map fun settings => {
      settings with
      disabled := Settings.items ((environment.lookup disableVariable).getD "") } := by
  have hapiUrl : Settings.stripped environment apiUrlVariable =
      Settings.stripped world.environment apiUrlVariable := by
    rw [Settings.stripped, Settings.stripped, h apiUrlVariable (by decide)]
  have htoken : Settings.stripped environment tokenVariable =
      Settings.stripped world.environment tokenVariable := by
    rw [Settings.stripped, Settings.stripped, h tokenVariable (by decide)]
  have hlevel : Settings.levelOf environment = Settings.levelOf world.environment := by
    rw [Settings.levelOf, Settings.levelOf, h levelVariable (by decide)]
  simp only [Settings.load, hapiUrl, htoken, hlevel]
  split
  · rfl
  · cases Settings.levelOf world.environment <;> rfl

theorem disabled_of_load {settings : Settings} (h : Settings.load environment = .ok settings) :
    settings.disabled = Settings.items ((environment.lookup disableVariable).getD "") := by
  unfold Settings.load at h
  dsimp only at h
  split at h
  · cases h
  · split at h
    · cases h
    · cases h
      rfl

theorem selectRules_congr (world : World) {settings settings' : Settings}
    {disable disable' : List String}
    (h : ∀ id, id ∈ settings.disabled ++ disable ↔ id ∈ settings'.disabled ++ disable') :
    selectRules world settings disable = selectRules world settings' disable' := by
  rw [selectRules, selectRules, RuleSet.select_congr_disabled world.catalogue none h]

/-- **Only the set of the names counts**, not which of them the variable lists and which of them
options give. -/
theorem rulesIn_congr {listed listed' disable disable' : List String}
    (hothers : ∀ key, key ≠ disableVariable →
      environment.lookup key = world.environment.lookup key)
    (hlisted : Settings.Lists ((world.environment.lookup disableVariable).getD "") listed)
    (hlisted' : Settings.Lists ((environment.lookup disableVariable).getD "") listed')
    (hsame : ∀ id, id ∈ listed ++ disable ↔ id ∈ listed' ++ disable') :
    rulesIn world disable = rulesIn { world with environment := environment } disable' := by
  rw [rulesIn, rulesIn, load_of_others hothers]
  cases hload : Settings.load world.environment with
  | error error => rfl
  | ok settings =>
      have hdisabled : settings.disabled = listed := by
        rw [disabled_of_load hload, Settings.items_of_lists hlisted]
      refine selectRules_congr world fun id => ?_
      rw [hdisabled, hsame, Settings.items_of_lists hlisted']

/-- **It does not matter where a rule is turned off.**  A list is read as its items, nothing but
items is ever read, and items that are joined are read again.  In two runs in which the variable
and the options together turn off the same rules, however they share them, and which differ in
nothing else, the rules are the same, or the complaint is. -/
theorem rulesIn_of_any_division :
    (∀ raw listed, Settings.Lists raw listed → Settings.items raw = listed) ∧
    (∀ raw, ∀ item ∈ Settings.items raw, Settings.IsItem item) ∧
    (∀ raw, Settings.items (Text.join "," (Settings.items raw)) = Settings.items raw) ∧
    ∀ (world : World) (environment : Environment) (listed listed' disable disable' : List String),
      (∀ key, key ≠ disableVariable → environment.lookup key = world.environment.lookup key) →
      Settings.Lists ((world.environment.lookup disableVariable).getD "") listed →
      Settings.Lists ((environment.lookup disableVariable).getD "") listed' →
      (∀ id, id ∈ listed ++ disable ↔ id ∈ listed' ++ disable') →
      rulesIn world disable = rulesIn { world with environment := environment } disable' := by
  refine ⟨fun raw listed => Settings.items_of_lists, fun raw item => Settings.isItem_of_mem_items,
    fun raw => ?_, ?_⟩
  · have hitems : ∀ item ∈ Settings.items raw, Settings.IsItem item :=
      fun item => Settings.isItem_of_mem_items
    exact Settings.items_of_lists (Settings.lists_join hitems)
  · intro world environment listed listed' disable disable'
    exact rulesIn_congr

/-- The variable lists two rules untidily, or only the second of them, which the options repeat. -/
theorem rulesIn_of_any_division_untidy :
    let world : World :=
      { tree := .directory [], directory := ["w"], response := .failed "-"
        environment := [("CODE_LINTER_DISABLE", ",no-var\t,, eqeqeq "), ("GITHUB_TOKEN", "t")] }
    let environment : Environment := [("GITHUB_TOKEN", "t"), ("CODE_LINTER_DISABLE", "eqeqeq")]
    (∀ key, key ≠ disableVariable → environment.lookup key = world.environment.lookup key) ∧
    Settings.Lists ",no-var\t,, eqeqeq " ["no-var", "eqeqeq"] ∧
    Settings.Lists "eqeqeq" ["eqeqeq"] ∧
    rulesIn world [] = rulesIn { world with environment := environment } ["eqeqeq", "no-var"] := by
  intro world environment
  have hothers : ∀ key, key ≠ disableVariable →
      environment.lookup key = world.environment.lookup key := by
    intro key hkey
    have hne : (key == "CODE_LINTER_DISABLE") = false := by simpa [disableVariable] using hkey
    simp only [environment, world, List.lookup_cons, hne, List.lookup_nil]
  have hnoVar : Settings.IsItem "no-var" := by
    refine ⟨by decide, by decide, ?_, ?_⟩
    · rintro c ⟨⟩
      rfl
    · rintro c ⟨⟩
      rfl
  have heqeqeq : Settings.IsItem "eqeqeq" := by
    refine ⟨by decide, by decide, ?_, ?_⟩
    · rintro c ⟨⟩
      rfl
    · rintro c ⟨⟩
      rfl
  have htab : ∀ c ∈ ['\t'], Text.isBlank c = true := by simp [Text.isBlank]
  have hspace : ∀ c ∈ [' '], Text.isBlank c = true := by simp [Text.isBlank]
  have hlisted : Settings.Lists ",no-var\t,, eqeqeq " ["no-var", "eqeqeq"] := by
    refine ⟨[[], [] ++ "no-var".toList ++ ['\t'], [], [' '] ++ "eqeqeq".toList ++ [' ']], ?_,
      by decide⟩
    exact .blank (List.forall_mem_nil _) (.item (List.forall_mem_nil _) htab hnoVar
      (.blank (List.forall_mem_nil _) (.item hspace hspace heqeqeq .nil)))
  have hlisted' : Settings.Lists "eqeqeq" ["eqeqeq"] := Settings.lists_join (by simpa using heqeqeq)
  have hvariable : (world.environment.lookup disableVariable).getD "" = ",no-var\t,, eqeqeq " := by
    simp [world, disableVariable]
  have hvariable' : (environment.lookup disableVariable).getD "" = "eqeqeq" := by
    simp [environment, disableVariable, List.lookup_cons]
  refine ⟨hothers, hlisted, hlisted', ?_⟩
  refine rulesIn_of_any_division.2.2.2 world environment ["no-var", "eqeqeq"] ["eqeqeq"] [] _
    hothers (by rwa [hvariable]) (by rwa [hvariable']) fun id => ?_
  simp only [List.append_nil, List.cons_append, List.nil_append, List.mem_cons, List.not_mem_nil,
    or_false, or_self_left]
  exact or_comm

end Command

end LineLint
