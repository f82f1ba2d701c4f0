import ClusterInventory.CommandLine

/-! # Options on two levels

An option of the program may stand before the command or after it. A level has the options that its
own arguments spell, and is refused where it asks both for the environment and for a kubeconfig. The
two levels are joined only afterwards, so that they may contradict each other. Exactly then a
kubeconfig or a context that was asked for is ignored.
-/

namespace ClusterInventory

/-- A kubeconfig or a context that is asked for is the one that is connected to. -/
def Invocation.Keeps (i : Invocation) : Prop :=
  i.kubeConfig.isSome = true ∨ i.context.isSome = true →
    i.plan = .ofKubeconfig i.kubeConfig i.context

theorem Invocation.keeps_iff (i : Invocation) :
    i.Keeps ↔ (i.kubeConfig.isSome = true ∨ i.context.isSome = true → i.ambient = false) := by
  unfold Keeps plan
  cases i.ambient with
  | false => simp
  | true => simp [ConnectionPlan.ambient, ConnectionPlan.ofKubeconfig]

namespace CommandLine

def Spells (long argument : String) : Prop :=
  argument = "--" ++ long ∨ ∃ value, argument = "--" ++ long ++ "=" ++ value

def Gives (long : String) (arguments : List String) : Prop :=
  ∃ argument ∈ arguments, Spells long argument

def Mixes (arguments others : List String) : Prop :=
  Gives "ambient" arguments ∧ (Gives "kube-config" others ∨ Gives "context" others)

theorem gives_nil (long : String) : ¬Gives long [] := by
  rintro ⟨argument, hArgument, _⟩
  cases hArgument

theorem gives_singleton (long argument : String) : Gives long [argument] ↔ Spells long argument := by
  simp only [Gives, List.mem_singleton, exists_eq_left]

theorem gives_append (long : String) (before after : List String) :
    Gives long (before ++ after) ↔ Gives long before ∨ Gives long after := by
  simp only [Gives, List.mem_append, or_and_right, exists_or]

/-- A long option ends at its first equals sign. -/
theorem spells_iff {long : String} (h : '=' ∉ long.toList) (argument : String) :
    Spells long argument ↔ ∃ text, argument.toList = '-' :: '-' :: text ∧
      text.takeWhile (· ≠ '=') = long.toList := by
  have hTake (more : List Char) :
      (long.toList ++ more).takeWhile (· ≠ '=') = long.toList ++ more.takeWhile (· ≠ '=') := by
    apply List.takeWhile_append_of_pos
    intro c hMember
    simpa using fun hSame : c = '=' => h (hSame ▸ hMember)
  constructor
  · rintro (rfl | ⟨value, rfl⟩)
    · exact ⟨long.toList, by simp, by simpa using hTake []⟩
    · exact ⟨long.toList ++ '=' :: value.toList, by simp, by simpa using hTake ('=' :: value.toList)⟩
  · rintro ⟨text, hText, hLong⟩
    have hSplit := List.takeWhile_append_dropWhile (p := (· ≠ '=')) (l := text)
    rw [hLong] at hSplit
    have hHead := List.head?_dropWhile_not (· ≠ '=') text
    rcases hRest : text.dropWhile (· ≠ '=') with _ | ⟨c, value⟩
    · left
      rw [hRest, List.append_nil] at hSplit
      rw [← String.toList_inj, hText, ← hSplit]
      simp
    · right
      rw [hRest] at hHead hSplit
      obtain rfl : c = '=' := by simpa using hHead
      refine ⟨String.ofList value, ?_⟩
      rw [← String.toList_inj, hText, ← hSplit]
      simp

theorem exists_of_bind_eq_ok {α β : Type} {x : Except UsageError α}
    {next : α → Except UsageError β} {b : β} (h : x >>= next = .ok b) :
    ∃ a, x = .ok a ∧ next a = .ok b := by
  cases x with
  | error e => cases h
  | ok a => exact ⟨a, rfl, h⟩

def Occurrence.grown (name : OptionName) (values : List String) (o : Occurrence) : Occurrence :=
  if o.name = name then { o with values } else o

theorem Occurrence.name_grown (name : OptionName) (values : List String) (o : Occurrence) :
    (o.grown name values).name = o.name := by
  unfold grown
  split <;> rfl

/-! ## Steps of a level -/

namespace Level

/-- The options that a level has met, whether or not their values are settled. -/
def names (l : Level) : List OptionName :=
  l.found.map Occurrence.name ++ (l.pending.map fun p => p.1.name).toList

structure Valid (l : Level) : Prop where
  values : ∀ o ∈ l.found, o.values ≠ []
  ambient : ∀ o ∈ l.found, o.name = .ambient → o.values = ["true"]
  pending : ∀ p ∈ l.pending, p.1.name ≠ .ambient

structure Gains (l l' : Level) (gained : OptionName → Prop) : Prop where
  names : ∀ name, name ∈ l'.names ↔ name ∈ l.names ∨ gained name
  valid : l'.Valid

theorem Gains.trans {l m l' : Level} {gained more : OptionName → Prop} (h : l.Gains m gained)
    (hNext : m.Gains l' more) : l.Gains l' fun name => gained name ∨ more name where
  names name := by rw [hNext.names, h.names, or_assoc]
  valid := hNext.valid

theorem Gains.congr {l l' : Level} {gained same : OptionName → Prop} (h : l.Gains l' gained)
    (hSame : ∀ name, gained name ↔ same name) : l.Gains l' same where
  names name := by rw [h.names, hSame]
  valid := h.valid

theorem isSome_get?_iff (l : Level) (name : OptionName) :
    (l.get? name).isSome = true ↔ name ∈ l.found.map Occurrence.name := by
  simp [get?, List.find?_isSome]

theorem splitList_ne_nil (acc text : List Char) : splitList acc text ≠ [] := by
  induction text generalizing acc with
  | nil => exact List.cons_ne_nil _ _
  | cons c rest ih =>
    rw [splitList]
    split
    · exact List.cons_ne_nil _ _
    · exact ih _

theorem values?_ne_nil {form : ValueForm} {text : String} {values : List String}
    (h : values? form text = some values) : values ≠ [] := by
  cases form with
  | flag =>
    obtain ⟨_, hText⟩ := Option.ite_none_right_eq_some.mp h
    obtain rfl := Option.some.inj hText
    exact List.cons_ne_nil _ _
  | path =>
    obtain ⟨_, hText⟩ := Option.ite_none_left_eq_some.mp h
    obtain rfl := Option.some.inj hText
    exact List.cons_ne_nil _ _
  | text =>
    obtain rfl := Option.some.inj h
    exact List.cons_ne_nil _ _
  | list =>
    obtain rfl := Option.some.inj h
    exact splitList_ne_nil [] text.toList
  | format =>
    obtain ⟨_, hText⟩ := Option.ite_none_right_eq_some.mp h
    obtain rfl := Option.some.inj hText
    exact List.cons_ne_nil _ _

/-- An option is new, or it is a list that grows. -/
theorem settle_cases {l l' : Level} {rule : OptionRule} {text : Option String}
    {fromEnvironment : Bool} (h : l.settle rule text fromEnvironment = .ok l') :
    ∃ given values, text = some given ∧ values? rule.form given = some values ∧
      (l' = { l with found := l.found ++ [⟨rule.name, values, fromEnvironment⟩] } ∨
        rule.form = .list ∧ ∃ earlier, l.get? rule.name = some earlier ∧
          l' = { l with found := l.found.map (·.grown rule.name (earlier.values ++ values)) }) := by
  unfold settle at h
  split at h
  · cases h
  · rename_i given
    split at h
    · rename_i earlier hEarlier hForm
      split at h
      · rename_i more hValues
        obtain rfl := Except.ok.inj h
        exact ⟨given, more, rfl, by rwa [hForm], .inr ⟨hForm, earlier, hEarlier, rfl⟩⟩
      · cases h
    · cases h
    · split at h
      · rename_i values hValues
        obtain rfl := Except.ok.inj h
        exact ⟨given, values, rfl, hValues, .inl rfl⟩
      · cases h

theorem gains_append {l : Level} (hValid : l.Valid) {o : Occurrence} (hValues : o.values ≠ [])
    (hAmbient : o.name = .ambient → o.values = ["true"]) :
    l.Gains { l with found := l.found ++ [o] } (· = o.name) := by
  refine ⟨?_, ?_, ?_, hValid.pending⟩
  · intro name
    simp only [names, List.map_append, List.map_cons, List.map_nil, List.mem_append,
      List.mem_singleton, or_right_comm]
  · simp only [List.forall_mem_append, List.forall_mem_singleton]
    exact ⟨hValid.values, hValues⟩
  · simp only [List.forall_mem_append, List.forall_mem_singleton]
    exact ⟨hValid.ambient, hAmbient⟩

theorem gains_map_grown {l : Level} (hValid : l.Valid) {name : OptionName} {values : List String}
    (hMet : name ∈ l.found.map Occurrence.name) (hOther : name ≠ .ambient) (hValues : values ≠ []) :
    l.Gains { l with found := l.found.map (·.grown name values) } (· = name) := by
  have hNames : (l.found.map (·.grown name values)).map Occurrence.name =
      l.found.map Occurrence.name := by
    rw [List.map_map]
    exact List.map_congr_left fun o _ => o.name_grown name values
  refine ⟨?_, ?_, ?_, hValid.pending⟩
  · intro other
    simp only [names, hNames, List.mem_append]
    constructor
    · exact .inl
    · rintro (hFound | rfl)
      · exact hFound
      · exact .inl hMet
  · simp only [List.forall_mem_map]
    intro o hMember
    unfold Occurrence.grown
    split
    · exact hValues
    · exact hValid.values o hMember
  · simp only [List.forall_mem_map, Occurrence.name_grown]
    intro o hMember hAsked
    unfold Occurrence.grown
    rw [if_neg fun hName => hOther (hName.symm.trans hAsked)]
    exact hValid.ambient o hMember hAsked

theorem gains_settle {l l' : Level} (hValid : l.Valid) {rule : OptionRule} {text : Option String}
    {fromEnvironment : Bool} (h : l.settle rule text fromEnvironment = .ok l')
    (hAmbient : rule.name = .ambient → rule.form = .flag ∧ text = some "true") :
    l.Gains l' (· = rule.name) := by
  obtain ⟨given, values, rfl, hValues, rfl | ⟨hForm, earlier, hEarlier, rfl⟩⟩ := settle_cases h
  · apply gains_append hValid (values?_ne_nil hValues)
    intro hName
    obtain ⟨hForm, hText⟩ := hAmbient hName
    obtain rfl := Option.some.inj hText
    rw [hForm] at hValues
    exact (Option.some.inj hValues).symm
  · apply gains_map_grown hValid
    · rw [← isSome_get?_iff, hEarlier]
      rfl
    · intro hName
      rw [(hAmbient hName).1] at hForm
      cases hForm
    · exact fun hEmpty => values?_ne_nil hValues (List.append_eq_nil_iff.mp hEmpty).2

theorem gains_settlePending {l l' : Level} (hValid : l.Valid) (h : l.settlePending = .ok l') :
    l.Gains l' (fun _ => False) := by
  unfold settlePending at h
  split at h
  · obtain rfl := Except.ok.inj h
    exact ⟨fun _ => iff_of_eq (or_false _).symm, hValid⟩
  · rename_i rule text hPending
    have hNone : Valid { l with pending := none } :=
      ⟨hValid.values, hValid.ambient, fun _ hMember => by cases hMember⟩
    have hRule : rule.name ≠ .ambient := hValid.pending _ hPending
    have hSettled := gains_settle hNone h fun hName => absurd hName hRule
    refine ⟨fun name => ?_, hSettled.valid⟩
    rw [hSettled.names]
    simp [names, hPending]

theorem pending_settlePending {l l' : Level} (h : l.settlePending = .ok l') : l'.pending = none := by
  unfold settlePending at h
  split at h
  · rename_i hPending
    obtain rfl := Except.ok.inj h
    exact hPending
  · obtain ⟨_, _, _, _, rfl | ⟨_, _, _, rfl⟩⟩ := settle_cases h
    · rfl
    · rfl

theorem gains_raise {l l' : Level} (hValid : l.Valid) {rule : OptionRule}
    (hFlag : rule.form = .flag) (h : l.raise rule = .ok l') : l.Gains l' (· = rule.name) := by
  obtain ⟨m, hPending, hRaised⟩ := exists_of_bind_eq_ok h
  have hSettled := gains_settlePending hValid hPending
  have hMet : m.settle rule (some "true") false = .ok l' := by
    split at hRaised
    · cases hRaised
    · cases hRaised
    · exact hRaised
  exact (hSettled.trans (gains_settle hSettled.valid hMet fun _ => ⟨hFlag, rfl⟩)).congr
    fun _ => iff_of_eq (false_or _)

theorem gains_give {l l' : Level} (hValid : l.Valid) {rule : OptionRule}
    (hOther : rule.name ≠ .ambient) {attached : Option String}
    (h : l.give rule attached = .ok l') : l.Gains l' (· = rule.name) := by
  obtain ⟨m, hPending, hGiven⟩ := exists_of_bind_eq_ok h
  have hSettled := gains_settlePending hValid hPending
  cases attached with
  | some text =>
    exact (hSettled.trans (gains_settle hSettled.valid hGiven fun hName => absurd hName hOther)).congr
      fun _ => iff_of_eq (false_or _)
  | none =>
    obtain rfl := Except.ok.inj hGiven
    have hNone := pending_settlePending hPending
    refine ⟨fun name => ?_, hSettled.valid.values, hSettled.valid.ambient, ?_⟩
    · have hNames := hSettled.names name
      simp only [names, hNone, Option.map_none, Option.toList_none, List.append_nil, or_false]
        at hNames
      simp [names, hNames]
    · rintro p hMember
      obtain rfl := Option.some.inj hMember
      exact hOther

/-! ## Reading arguments -/

/-- Rules where it is a mere flag that asks for the environment. -/
def Regular (rules : List OptionRule) : Prop :=
  ∀ rule ∈ rules, rule.name = .ambient → rule.form = .flag

structure HasLong (rules : List OptionRule) (name : OptionName) (long : String) : Prop where
  nonempty : long ≠ ""
  noEquals : '=' ∉ long.toList
  long_iff : ∀ rule ∈ rules, rule.long = long ↔ rule.name = name
  short : ∀ rule ∈ rules, rule.name = name → rule.short = none

section Reading

variable {rules : List OptionRule} (hRules : Regular rules)

include hRules

theorem gains_takeLong {l l' : Level} (hValid : l.Valid) {text : List Char}
    (h : l.takeLong rules text = .ok l') :
    ∃ rule ∈ rules, rule.long = String.ofList (text.takeWhile (· ≠ '=')) ∧
      l.Gains l' (· = rule.name) := by
  unfold takeLong at h
  extract_lets name attached at h
  clear_value attached
  split at h
  · cases h
  · rename_i rule hFound
    have hRule := List.mem_of_find?_eq_some hFound
    refine ⟨rule, hRule, by simpa [name] using List.find?_some hFound, ?_⟩
    split at h
    · exact gains_raise hValid ‹rule.form = .flag› h
    · cases h
    · rename_i attached _ _ hNone hSome
      refine gains_give hValid (fun hName => ?_) h
      have hFlag := hRules rule hRule hName
      cases attached with
      | none => exact hNone hFlag rfl
      | some value => exact hSome value hFlag rfl

theorem gains_takeShort {l l' : Level} (hValid : l.Valid) {letters : List Char}
    (h : takeShort rules l letters = .ok l') :
    ∃ gained, l.Gains l' gained ∧
      ∀ name, gained name → ∃ rule ∈ rules, rule.name = name ∧ rule.short ≠ none := by
  induction letters generalizing l with
  | nil =>
    obtain rfl := Except.ok.inj h
    exact ⟨fun _ => False, ⟨fun _ => iff_of_eq (or_false _).symm, hValid⟩, fun _ => False.elim⟩
  | cons c rest ih =>
    rw [takeShort] at h
    split at h
    · cases h
    · rename_i rule hFound
      have hRule := List.mem_of_find?_eq_some hFound
      have hShort : rule.short ≠ none := by
        have hLetter : rule.short = some c := by simpa using List.find?_some hFound
        rw [hLetter]
        exact Option.some_ne_none c
      split at h
      · rename_i hFlag
        obtain ⟨m, hRaised, hRest⟩ := exists_of_bind_eq_ok h
        have hGains := gains_raise hValid hFlag hRaised
        obtain ⟨gained, hMore, hLetters⟩ := ih hGains.valid hRest
        refine ⟨_, hGains.trans hMore, ?_⟩
        rintro name (rfl | hGained)
        · exact ⟨rule, hRule, rfl, hShort⟩
        · exact hLetters name hGained
      · rename_i hForm
        have hOther : rule.name ≠ .ambient := fun hName => hForm (hRules rule hRule hName)
        have hGiven : ∃ attached, l.give rule attached = .ok l' := by
          split at h
          · exact ⟨_, h⟩
          · exact ⟨_, h⟩
          · exact ⟨_, h⟩
        obtain ⟨attached, hGiven⟩ := hGiven
        refine ⟨_, gains_give hValid hOther hGiven, ?_⟩
        rintro name rfl
        exact ⟨rule, hRule, rfl, hShort⟩

structure Meets (rules : List OptionRule) (l l' : Level) (arguments : List String) : Prop where
  valid : l'.Valid
  names : ∀ name long, HasLong rules name long →
    (name ∈ l'.names ↔ name ∈ l.names ∨ Gives long arguments)

omit hRules in
theorem Meets.refl {l : Level} (hValid : l.Valid) : Meets rules l l [] where
  valid := hValid
  names name long _ := by rw [iff_false_intro (gives_nil long), or_false]

omit hRules in
theorem Meets.trans {l m l' : Level} {before after : List String}
    (hBefore : Meets rules l m before) (hAfter : Meets rules m l' after) :
    Meets rules l l' (before ++ after) where
  valid := hAfter.valid
  names name long hLong := by
    rw [hAfter.names name long hLong, hBefore.names name long hLong, gives_append, or_assoc]

omit hRules in
/-- Only an argument with two dashes spells an option; any other meets none that has no letter. -/
theorem Meets.of_not_dashes {l l' : Level} (hValid : l'.Valid) {argument : String}
    (hText : ∀ text, argument.toList ≠ '-' :: '-' :: text)
    (hNames : ∀ name long, HasLong rules name long → (name ∈ l'.names ↔ name ∈ l.names)) :
    Meets rules l l' [argument] where
  valid := hValid
  names name long hLong := by
    have hOther : ¬Spells long argument := by
      rw [spells_iff hLong.noEquals]
      rintro ⟨text, hDashes, _⟩
      exact hText text hDashes
    rw [hNames name long hLong, gives_singleton, iff_false_intro hOther, or_false]

omit hRules in
/-- Two dashes alone spell no option. -/
theorem meets_trailing {l : Level} (hValid : l.Valid) {argument : String}
    (hText : argument.toList = ['-', '-']) :
    Meets rules l { l with trailing := true } [argument] where
  valid := ⟨hValid.values, hValid.ambient, hValid.pending⟩
  names name long hLong := by
    have hOther : ¬Spells long argument := by
      rw [spells_iff hLong.noEquals, hText]
      rintro ⟨text, hDashes, hTake⟩
      obtain rfl : [] = text := by simpa using hDashes
      exact hLong.nonempty (String.toList_eq_nil_iff.mp hTake.symm)
    rw [gives_singleton, iff_false_intro hOther, or_false]
    rfl

omit hRules in
theorem meets_value {l : Level} (hValid : l.Valid) {argument : String}
    (hText : ∀ text, argument.toList ≠ '-' :: '-' :: text) {rule : OptionRule}
    (hPending : l.pending = some (rule, none)) :
    Meets rules l { l with pending := some (rule, some argument) } [argument] := by
  have hStill : Valid { l with pending := some (rule, some argument) } := by
    refine ⟨hValid.values, hValid.ambient, fun p hMember => ?_⟩
    obtain rfl := Option.some.inj hMember
    exact hValid.pending (rule, none) hPending
  apply Meets.of_not_dashes hStill hText
  intro name long _
  simp [Level.names, hPending]

theorem meets_takeLong {l l' : Level} (hValid : l.Valid) {argument : String} {text : List Char}
    (hText : argument.toList = '-' :: '-' :: text) (h : l.takeLong rules text = .ok l') :
    Meets rules l l' [argument] := by
  obtain ⟨rule, hRule, hSpelled, hGains⟩ := gains_takeLong hRules hValid h
  refine ⟨hGains.valid, fun name long hLong => ?_⟩
  have hSpells : Spells long argument ↔ rule.long = long := by
    rw [hSpelled, spells_iff hLong.noEquals, hText]
    constructor
    · rintro ⟨other, hOther, hTake⟩
      obtain rfl : text = other := by simpa using hOther
      rw [hTake, String.ofList_toList]
    · rintro rfl
      exact ⟨text, rfl, String.toList_ofList.symm⟩
  rw [hGains.names, gives_singleton, hSpells, hLong.long_iff rule hRule, eq_comm]

theorem meets_takeShort {l l' : Level} (hValid : l.Valid) {argument : String}
    (hText : ∀ text, argument.toList ≠ '-' :: '-' :: text) {letters : List Char}
    (h : takeShort rules l letters = .ok l') : Meets rules l l' [argument] := by
  obtain ⟨gained, hGains, hLetters⟩ := gains_takeShort hRules hValid h
  refine .of_not_dashes hGains.valid hText fun name long hLong => ?_
  have hLetter : ¬gained name := by
    intro hGained
    obtain ⟨rule, hRule, hName, hShort⟩ := hLetters name hGained
    exact hShort (hLong.short rule hRule hName)
  rw [hGains.names, iff_false_intro hLetter, or_false]

/-- A level reads its arguments up to the name of a command, and meets what they spell. -/
theorem read_meets {isProgram : Bool} {l l' : Level} (hValid : l.Valid) {arguments : List String}
    {command : Option (String × List String)}
    (h : read rules isProgram l arguments = .ok (l', command)) :
    ∃ before, arguments = before ++ command.elim [] (fun c => c.1 :: c.2) ∧
      (∀ c, command = some c → isProgram = true ∧ c.1 ∈ commandNames) ∧
      Meets rules l l' before := by
  induction arguments generalizing l with
  | nil =>
    obtain ⟨rfl, rfl⟩ := Prod.mk.inj (Except.ok.inj h)
    exact ⟨[], rfl, by simp, .refl hValid⟩
  | cons argument rest ih =>
    have hNext {m : Level} (hFirst : Meets rules l m [argument])
        (hRest : m.read rules isProgram rest = .ok (l', command)) :
        ∃ before, argument :: rest = before ++ command.elim [] (fun c => c.1 :: c.2) ∧
          (∀ c, command = some c → isProgram = true ∧ c.1 ∈ commandNames) ∧
          Meets rules l l' before := by
      obtain ⟨before, rfl, hCommand, hMeets⟩ := ih hFirst.valid hRest
      exact ⟨argument :: before, rfl, hCommand, hFirst.trans hMeets⟩
    rw [read] at h
    split at h
    · cases h
    split at h
    · rename_i hCommand
      split at h
      · cases h
      · rename_i hHelp
        obtain ⟨rfl, rfl⟩ := Prod.mk.inj (Except.ok.inj h)
        refine ⟨[], rfl, ?_, .refl hValid⟩
        rintro c hName
        obtain rfl := Option.some.inj hName
        simp only [isCommandName, hHelp, Bool.and_eq_true, beq_iff_eq, Bool.or_eq_true, or_false,
          List.contains_iff_mem] at hCommand
        exact ⟨hCommand.1.1, hCommand.2⟩
    split at h
    · exact hNext (meets_trailing hValid ‹_›) h
    · obtain ⟨m, hTaken, hRest⟩ := exists_of_bind_eq_ok h
      exact hNext (meets_takeLong hRules hValid ‹_› hTaken) hRest
    · rename_i c text _ hOther hText
      obtain ⟨m, hTaken, hRest⟩ := exists_of_bind_eq_ok h
      refine hNext (meets_takeShort hRules hValid (fun other hDashes => ?_) hTaken) hRest
      rw [hText] at hDashes
      exact hOther (List.cons.inj (List.cons.inj hDashes).2).1
    · rename_i hOther _
      split at h
      · exact hNext (meets_value hValid hOther ‹_›) h
      · cases h

end Reading

/-! ## The end of a level -/

theorem valid_empty : Valid {} where
  values _ hMember := by cases hMember
  ambient _ hMember := by cases hMember
  pending _ hMember := by cases hMember

/-- At the end of a level all that it has met is settled, and only the flag of local development
may be added. -/
theorem isSome_get?_finish {env : Environment} {l l' : Level} (hValid : l.Valid)
    (h : l.finish env = .ok l') :
    l'.Valid ∧ ∀ name, name ≠ .localDev → ((l'.get? name).isSome = true ↔ name ∈ l.names) := by
  obtain ⟨m, hPending, hFinish⟩ := exists_of_bind_eq_ok h
  have hSettled := gains_settlePending hValid hPending
  have hNone := pending_settlePending hPending
  have hMet (name : OptionName) : name ∈ m.found.map Occurrence.name ↔ name ∈ l.names := by
    simpa [names, hNone] using hSettled.names name
  split at hFinish
  · have hAdded := gains_settle hSettled.valid hFinish fun hName => by cases hName
    have hStill : l'.pending = none := by
      obtain ⟨_, _, _, _, rfl | ⟨_, _, _, rfl⟩⟩ := settle_cases hFinish
      · exact hNone
      · exact hNone
    refine ⟨hAdded.valid, fun name hOther => ?_⟩
    have hNames := hAdded.names name
    simp only [names, hStill, hNone, Option.map_none, Option.toList_none, List.append_nil]
      at hNames
    rw [isSome_get?_iff, hNames, hMet]
    exact or_iff_left hOther
  · obtain rfl := Except.ok.inj hFinish
    refine ⟨hSettled.valid, fun name _ => ?_⟩
    rw [isSome_get?_iff, hMet]

theorem checkConflicts_eq_ok_iff (l l' : Level) :
    l.checkConflicts = .ok l' ↔ l = l' ∧ ¬((l.get? .ambient).isSome = true ∧
      ((l.get? .kubeConfig).isSome = true ∨ (l.get? .context).isSome = true)) := by
  simp only [checkConflicts, ← Bool.or_eq_true, ← Bool.and_eq_true]
  split
  · rename_i hConflict
    constructor
    · intro h
      cases h
    · rintro ⟨_, hNone⟩
      exact absurd hConflict hNone
  · rename_i hNone
    constructor
    · intro h
      exact ⟨Except.ok.inj h, hNone⟩
    · rintro ⟨rfl, _⟩
      rfl

/-- The rules of either level give each option that has no letter its own long name. -/
theorem hasLong {rules : List OptionRule}
    (hRules : rules ∈ [programRules, globalRules, fetchRules]) {rule : OptionRule}
    (hRule : rule ∈ globalRules) (hShort : rule.short = none) :
    HasLong rules rule.name rule.long := by
  have hText : ∀ rule ∈ globalRules, rule.long ≠ "" ∧ '=' ∉ rule.long.toList := by
    decide
  have hNames : ∀ rules ∈ [programRules, globalRules, fetchRules], ∀ rule ∈ globalRules,
      rule.short = none → ∀ other ∈ rules, (other.long = rule.long ↔ other.name = rule.name) ∧
        (other.name = rule.name → other.short = none) := by
    decide
  exact ⟨(hText rule hRule).1, (hText rule hRule).2,
    fun other hOther => (hNames rules hRules rule hRule hShort other hOther).1,
    fun other hOther => (hNames rules hRules rule hRule hShort other hOther).2⟩

theorem regular {rules : List OptionRule}
    (hRules : rules ∈ [programRules, globalRules, fetchRules]) : Regular rules := by
  have hFlags : ∀ rules ∈ [programRules, globalRules, fetchRules],
      ∀ rule ∈ rules, rule.name = .ambient → rule.form = .flag := by
    decide
  exact hFlags rules hRules

theorem rulesOf_mem (command : String) :
    rulesOf command ∈ [programRules, globalRules, fetchRules] := by
  unfold rulesOf
  split <;> simp

structure Done (l : Level) (arguments : List String) : Prop where
  valid : l.Valid
  ambient : (l.get? .ambient).isSome = true ↔ Gives "ambient" arguments
  kubeConfig : (l.get? .kubeConfig).isSome = true ↔ Gives "kube-config" arguments
  context : (l.get? .context).isSome = true ↔ Gives "context" arguments
  not_mixes : ¬Mixes arguments arguments

theorem done_of_meets {env : Environment} {rules : List OptionRule}
    (hRules : rules ∈ [programRules, globalRules, fetchRules]) {l m l' : Level}
    {arguments : List String} (hMeets : Meets rules {} l arguments)
    (hFinish : l.finish env = .ok m) (hCheck : m.checkConflicts = .ok l') :
    l'.Done arguments := by
  obtain ⟨rfl, hConflict⟩ := (checkConflicts_eq_ok_iff m l').mp hCheck
  obtain ⟨hValid, hNames⟩ := isSome_get?_finish hMeets.valid hFinish
  have hGiven (rule : OptionRule) (hRule : rule ∈ globalRules) (hShort : rule.short = none)
      (hOther : rule.name ≠ .localDev) :
      (m.get? rule.name).isSome = true ↔ Gives rule.long arguments := by
    rw [hNames rule.name hOther, hMeets.names _ _ (hasLong hRules hRule hShort)]
    exact or_iff_right fun hMember => by cases hMember
  have hAmbient := hGiven ⟨.ambient, "ambient", none, .flag⟩ (by decide) rfl (by decide)
  have hKubeConfig := hGiven ⟨.kubeConfig, "kube-config", none, .path⟩ (by decide) rfl (by decide)
  have hContext := hGiven ⟨.context, "context", none, .text⟩ (by decide) rfl (by decide)
  refine ⟨hValid, hAmbient, hKubeConfig, hContext, ?_⟩
  rwa [hAmbient, hKubeConfig, hContext] at hConflict

end Level

/-! ## Both levels -/

theorem isSome_prefer (outer inner : Option Occurrence) :
    (prefer outer inner).isSome = true ↔ outer.isSome = true ∨ inner.isSome = true := by
  rcases outer with _ | outer <;> rcases inner with _ | inner
  · simp [prefer]
  · simp [prefer]
  · simp [prefer]
  · simp only [prefer]
    split <;> simp

theorem eq_of_prefer_eq_some {outer inner : Option Occurrence} {o : Occurrence}
    (h : prefer outer inner = some o) : outer = some o ∨ inner = some o := by
  rcases outer with _ | outer <;> rcases inner with _ | inner
  · exact .inr h
  · exact .inr h
  · exact .inl h
  · simp only [prefer] at h
    split at h
    · exact .inl h
    · exact .inr h

theorem Level.Valid.mem_prefer {outer inner : Level} (hOuter : outer.Valid) (hInner : inner.Valid)
    {name : OptionName} {o : Occurrence}
    (h : prefer (outer.get? name) (inner.get? name) = some o) :
    o.values ≠ [] ∧ (name = .ambient → o.values = ["true"]) := by
  obtain ⟨l, hValid, hFound⟩ : ∃ l : Level, l.Valid ∧ l.get? name = some o := by
    obtain hFound | hFound := eq_of_prefer_eq_some h
    · exact ⟨outer, hOuter, hFound⟩
    · exact ⟨inner, hInner, hFound⟩
  have hMember := List.mem_of_find?_eq_some hFound
  have hName : o.name = name := by simpa using List.find?_some hFound
  exact ⟨hValid.values o hMember, fun hAmbient => hValid.ambient o hMember (hName.trans hAmbient)⟩

theorem isSome_firstValue_prefer {outer inner : Level} (hOuter : outer.Valid)
    (hInner : inner.Valid) (name : OptionName) :
    (firstValue (prefer (outer.get? name) (inner.get? name))).isSome = true ↔
      (outer.get? name).isSome = true ∨ (inner.get? name).isSome = true := by
  rw [← isSome_prefer]
  cases hPrefer : prefer (outer.get? name) (inner.get? name) with
  | none => rfl
  | some o =>
    obtain ⟨value, more, hValues⟩ := List.exists_cons_of_ne_nil (hOuter.mem_prefer hInner hPrefer).1
    simp [firstValue, hValues]

theorem flagValue_prefer {outer inner : Level} (hOuter : outer.Valid) (hInner : inner.Valid) :
    flagValue (prefer (outer.get? .ambient) (inner.get? .ambient)) = true ↔
      (outer.get? .ambient).isSome = true ∨ (inner.get? .ambient).isSome = true := by
  rw [← isSome_prefer]
  cases hPrefer : prefer (outer.get? .ambient) (inner.get? .ambient) with
  | none => simp [flagValue, firstValue]
  | some o => simp [flagValue, firstValue, (hOuter.mem_prefer hInner hPrefer).2 rfl]

structure Splits (arguments before : List String) (command : String) (rest : List String) :
    Prop where
  eq_append : arguments = before ++ command :: rest
  command_mem : command ∈ commandNames
  read : ∃ l, Level.read programRules true {} arguments = .ok (l, some (command, rest))

theorem exists_done_of_parse {env : Environment} {arguments : List String} {i : Invocation}
    (h : parse env arguments = .ok i) :
    ∃ before command rest outer inner, Splits arguments before command rest ∧
      Level.Done outer before ∧ Level.Done inner rest ∧ i = invocationOf outer inner command := by
  obtain ⟨⟨outer, split⟩, hRead, h⟩ := exists_of_bind_eq_ok h
  cases split with
  | none =>
    obtain ⟨m, _, h⟩ := exists_of_bind_eq_ok h
    split at h <;> cases h
  | some split =>
    obtain ⟨command, rest⟩ := split
    obtain ⟨⟨inner, stray⟩, hInner, h⟩ := exists_of_bind_eq_ok h
    obtain ⟨_, hInnerFinish, h⟩ := exists_of_bind_eq_ok h
    obtain ⟨innerDone, hInnerCheck, h⟩ := exists_of_bind_eq_ok h
    obtain ⟨_, hOuterFinish, h⟩ := exists_of_bind_eq_ok h
    obtain ⟨outerDone, hOuterCheck, hSame⟩ := exists_of_bind_eq_ok h
    have hProgram : programRules ∈ [programRules, globalRules, fetchRules] := by
      simp
    obtain ⟨before, hArguments, hCommand, hBefore⟩ :=
      Level.read_meets (Level.regular hProgram) Level.valid_empty hRead
    obtain ⟨after, hRest, hNoCommand, hAfter⟩ :=
      Level.read_meets (Level.regular (Level.rulesOf_mem command)) Level.valid_empty hInner
    obtain rfl : stray = none := by
      cases stray with
      | none => rfl
      | some c => exact absurd (hNoCommand c rfl).1 Bool.false_ne_true
    obtain rfl : rest = after := by simpa using hRest
    exact ⟨before, command, rest, outerDone, innerDone,
      ⟨hArguments, (hCommand _ rfl).2, outer, hRead⟩,
      Level.done_of_meets hProgram hBefore hOuterFinish hOuterCheck,
      Level.done_of_meets (Level.rulesOf_mem command) hAfter hInnerFinish hInnerCheck,
      (Except.ok.inj hSame).symm⟩

structure Follows (i : Invocation) (before rest : List String) : Prop where
  ambient : i.ambient = true ↔ Gives "ambient" before ∨ Gives "ambient" rest
  kubeConfig : i.kubeConfig.isSome = true ↔ Gives "kube-config" before ∨ Gives "kube-config" rest
  context : i.context.isSome = true ↔ Gives "context" before ∨ Gives "context" rest

theorem follows_invocationOf {outer inner : Level} {before rest : List String}
    (hOuter : outer.Done before) (hInner : inner.Done rest) (command : String) :
    Follows (invocationOf outer inner command) before rest where
  ambient := by
    rw [← hOuter.ambient, ← hInner.ambient]
    exact flagValue_prefer hOuter.valid hInner.valid
  kubeConfig := by
    rw [← hOuter.kubeConfig, ← hInner.kubeConfig]
    exact isSome_firstValue_prefer hOuter.valid hInner.valid .kubeConfig
  context := by
    rw [← hOuter.context, ← hInner.context]
    exact isSome_firstValue_prefer hOuter.valid hInner.valid .context

/-- A kubeconfig or a context that is asked for is kept, unless the other side of the command asks
for the environment. -/
theorem parse_keeps_iff {env : Environment} {arguments : List String} {i : Invocation}
    (h : parse env arguments = .ok i) :
    ∃ before command rest, Splits arguments before command rest ∧ Follows i before rest ∧
      ¬Mixes before before ∧ ¬Mixes rest rest ∧
      (i.Keeps ↔ ¬Mixes before rest ∧ ¬Mixes rest before) := by
  obtain ⟨before, command, rest, outer, inner, hSplits, hOuter, hInner, rfl⟩ :=
    exists_done_of_parse h
  have hFollows := follows_invocationOf hOuter hInner command
  have hBefore := hOuter.not_mixes
  have hRest := hInner.not_mixes
  refine ⟨before, command, rest, hSplits, hFollows, hBefore, hRest, ?_⟩
  rw [Invocation.keeps_iff, ← Bool.not_eq_true, hFollows.ambient, hFollows.kubeConfig,
    hFollows.context]
  unfold Mixes at *
  grind

/-- A context that is named as a command is, and a kubeconfig on the other side of the command. -/
theorem parse_keeps_context :
    let arguments := ["--context", "version", "fetch", "--kube-config=local", "-k", "Pod"]
    let i : Invocation := {
      kubeConfig := some "local", context := some "version", ambient := false, localDev := false,
      config := none, logDir := none, command := .fetch { kinds := ["Pod"] } }
    parse [] arguments = .ok i ∧ i.plan = .ofKubeconfig (some "local") (some "version") ∧
      ∃ before command rest, Splits arguments before command rest ∧ Follows i before rest ∧
        ¬Mixes before before ∧ ¬Mixes rest rest ∧
        (i.Keeps ↔ ¬Mixes before rest ∧ ¬Mixes rest before) := by
  intro arguments i
  have hParse : parse [] arguments = .ok i := by
    rfl
  exact ⟨hParse, rfl, parse_keeps_iff hParse⟩

/-- The environment is asked for before the command, and a context after it. -/
theorem parse_ambient_ignores_context :
    ¬∀ env arguments i, parse env arguments = .ok i → i.Keeps := by
  intro hAll
  have hParse : parse [] ["--ambient", "version", "--context", "prod"] = .ok {
      kubeConfig := none, context := some "prod", ambient := true, localDev := false,
      config := none, logDir := none, command := .version } := by
    rfl
  have hAmbient := (Invocation.keeps_iff _).mp (hAll _ _ _ hParse) (.inr rfl)
  cases hAmbient

end CommandLine

end ClusterInventory
