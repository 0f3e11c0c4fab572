import OpenUI.Agent.Wifi
import OpenUI.Proofs.Agent.Uci

/-!
# `OpenUI.Proofs.Agent.Wifi`: when a planned change is refused

A request is planned on what `uci show` prints and checked against what `uci get` prints. The first
is unquoted and the second trimmed, so an option with white space at its ends is always refused as a
concurrent edit (`refused_iff_of_plan`), and a network name or key of this kind, which `wifi_value`
accepts, can never be changed again.

* `lookup_package`: what a plan reads of an option.
* `planned_of_planWifi`: every change is planned on that.
* `refused_iff`: what the check refuses.
-/

set_option autoImplicit false

namespace OpenUI.Agent.Wifi

open OpenUI.Text OpenUI.Json OpenUI.Euicc OpenUI.Concurrency OpenUI.Concurrency.Program
open OpenUI.Agent.Uci OpenUI.Agent.UciTransaction

-- The equations are stated here once, before the proofs that rewrite with them.
section
attribute [local simp] changesOf planFields planWifi
end

/-! ### The plan -/

/-- What `WifiConfig::load` gives for a store: the outputs of `uci show` for its two packages. -/
def Snapshot (live : String → Option Bytes) (cfg : WifiConfig) : Prop :=
  ∃ wireless mbb, Listing live "wireless" wireless ∧ Listing live "zte_mbb" mbb ∧
    cfg = .load (some (showOutput "wireless" wireless)) (some (showOutput "zte_mbb" mbb))

/-- Every option that a request can change. -/
def knownPaths : List String :=
  wifiFields.map Prod.snd ++ ["wireless.zte_mbb." ++ wifiOnoffKey, "zte_mbb.wifi." ++ wifiOnoffKey,
    "wireless.zte_mbb." ++ wifi6SwitchKey, "zte_mbb.wifi." ++ wifi6SwitchKey,
    "wireless.zte_mbb.wifi_onoff_by_user"]

/-- It is in one of the two packages, in a section. -/
def inPackage (path : String) : Bool :=
  match splitOnce '.' path with
  | some (config, tail) =>
    (config == "wireless" || config == "zte_mbb") && tail.toList.contains '.'
  | none => false

theorem inPackage_knownPaths : knownPaths.all inPackage = true := by
  show (knownPaths.all fun path => inPackage path) = true
  simp only [inPackage, splitOnce, toList_eq_asciiChars]
  decide +kernel

/-- What a plan reads of an option. -/
theorem lookup_package {live : String → Option Bytes} {cfg : WifiConfig} (h : Snapshot live cfg)
    {path : String} (hpath : path ∈ knownPaths) :
    (cfg.package (splitPath path).1).lookup (splitPath path).2 =
      (live path).map fromUtf8Lossy := by
  obtain ⟨wireless, mbb, hwireless, hmbb, rfl⟩ := h
  have hin := List.all_eq_true.mp inPackage_knownPaths path hpath
  unfold inPackage at hin
  cases hsplit : splitOnce '.' path with
  | none =>
    rw [hsplit] at hin
    cases hin
  | some pair =>
    obtain ⟨config, tail⟩ := pair
    rw [hsplit] at hin
    simp only [Bool.and_eq_true, Bool.or_eq_true, beq_iff_eq, List.contains_iff_mem] at hin
    obtain ⟨hconfig, htail⟩ := hin
    have happend : path = config ++ "." ++ tail := by
      apply String.toList_inj.mp
      rw [toList_of_splitOnce hsplit]
      simp
    rw [splitPath, hsplit, Option.getD_some, happend]
    rcases hconfig with rfl | rfl
    · exact lookup_uciShow hwireless htail
    · exact lookup_uciShow hmbb htail

/-- A change is planned on what its option reads as. -/
def Planned (live : String → Option Bytes) (c : Change) : Prop :=
  ∃ value, live c.key = some value ∧ c.before = fromUtf8Lossy value

section Plan

variable {live : String → Option Bytes} {cfg : WifiConfig}

theorem planned_of_changesOf (h : Snapshot live cfg) {key after : String} {paths : List String}
    {changes : List Change} (hpaths : ∀ path ∈ paths, path ∈ knownPaths)
    (hok : changesOf key after cfg paths = .ok changes) :
    ∀ c ∈ changes, c.key ∈ paths ∧ Planned live c := by
  induction paths generalizing changes with
  | nil =>
    cases hok
    intro c hc
    cases hc
  | cons path rest ih =>
    have hread := lookup_package h (hpaths path List.mem_cons_self)
    rw [changesOf] at hok
    split at hok
    · cases hok
    · rename_i before hbefore
      rw [hread] at hbefore
      obtain ⟨value, hvalue, hdecoded⟩ := Option.map_eq_some_iff.mp hbefore
      split at hok
      · cases hok
      · rename_i more hmore
        have hrest := ih (fun p hp => hpaths p (List.mem_cons_of_mem _ hp)) hmore
        have hrest' : ∀ c ∈ more, c.key ∈ path :: rest ∧ Planned live c := fun c hc =>
          ⟨List.mem_cons_of_mem _ (hrest c hc).1, (hrest c hc).2⟩
        obtain rfl := Except.ok.inj hok
        intro c hc
        split at hc
        · rcases List.mem_cons.mp hc with rfl | hc
          · exact ⟨List.mem_cons_self, value, hvalue, hdecoded.symm⟩
          · exact hrest' c hc
        · exact hrest' c hc

/-- The options of a field. -/
theorem mem_knownPaths {key : String} {paths : List String} (h : pathsOf key cfg = .ok paths) :
    ∀ path ∈ paths, path ∈ knownPaths := by
  intro path hpath
  unfold pathsOf at h
  split at h
  · rename_i hkey
    obtain rfl := Except.ok.inj h
    -- One of the two switches, in one of the two packages.
    have hmem : path ∈ ["wireless.zte_mbb." ++ key, "zte_mbb.wifi." ++ key] ++
        ["wireless.zte_mbb.wifi_onoff_by_user"] := by
      split at hpath
      · rcases List.mem_append.mp hpath with hpath | hpath
        · exact List.mem_append_left _ (List.mem_filter.mp hpath).1
        · exact List.mem_append_right _ hpath
      · exact List.mem_append_left _ (List.mem_filter.mp hpath).1
    unfold knownPaths
    rcases hkey with rfl | rfl
    · simp only [List.mem_append, List.mem_cons, List.not_mem_nil, or_false] at hmem ⊢
      tauto
    · simp only [List.mem_append, List.mem_cons, List.not_mem_nil, or_false] at hmem ⊢
      tauto
  · split at h
    · cases h
    · rename_i found hfound
      obtain rfl := Except.ok.inj h
      obtain rfl := List.mem_singleton.mp hpath
      have hentry : (key, path) ∈ wifiFields := by
        obtain ⟨before, after, hfields, -⟩ := List.lookup_eq_some_iff.mp hfound
        rw [hfields]
        exact List.mem_append_right _ List.mem_cons_self
      exact List.mem_append_left _ (List.mem_map.mpr ⟨_, hentry, rfl⟩)

theorem planned_of_planField (h : Snapshot live cfg) {key : String} {value : Value}
    {changes : List Change} (hok : planField key value cfg = .ok changes) :
    ∀ c ∈ changes, (∃ paths, pathsOf key cfg = .ok paths ∧ c.key ∈ paths) ∧ Planned live c := by
  unfold planField at hok
  split at hok
  · cases hok
  · rename_i paths hpaths
    split at hok
    · cases hok
    · split at hok
      · obtain rfl := Except.ok.inj hok
        intro c hc
        cases hc
      · split at hok
        · cases hok
        · intro c hc
          obtain ⟨hkey, hplanned⟩ := planned_of_changesOf h (mem_knownPaths hpaths) hok c hc
          exact ⟨⟨paths, hpaths, hkey⟩, hplanned⟩

theorem planned_of_planFields (h : Snapshot live cfg) {fields : List (String × Value)}
    {changes : List Change} (hok : planFields cfg fields = .ok changes) :
    ∀ c ∈ changes, Planned live c := by
  induction fields generalizing changes with
  | nil =>
    obtain rfl := Except.ok.inj hok
    intro c hc
    cases hc
  | cons field rest ih =>
    obtain ⟨key, value⟩ := field
    rw [planFields] at hok
    split at hok
    · cases hok
    · rename_i first hfirst
      split at hok
      · cases hok
      · rename_i more hmore
        obtain rfl := Except.ok.inj hok
        intro c hc
        rcases List.mem_append.mp hc with hc | hc
        · exact (planned_of_planField h hfirst c hc).2
        · exact ih hmore c hc

/-- The fields of a request that could be planned. -/
theorem planFields_of_planWifi {request : Value} {changes : List Change}
    (hok : planWifi request cfg = .ok changes) :
    ∃ fields, request = .obj fields ∧ planFields cfg fields = .ok changes := by
  unfold planWifi at hok
  split at hok
  · rename_i fields
    split at hok
    · cases hok
    · split at hok
      · cases hok
      · rename_i planned hplanned
        split at hok
        · cases hok
        · cases hok
        · obtain rfl := Except.ok.inj hok
          exact ⟨fields, rfl, hplanned⟩
  · cases hok

/-- Every change of a plan is planned on what its option reads as. -/
theorem planned_of_planWifi (h : Snapshot live cfg) {request : Value} {changes : List Change}
    (hok : planWifi request cfg = .ok changes) : ∀ c ∈ changes, Planned live c := by
  obtain ⟨fields, -, hfields⟩ := planFields_of_planWifi hok
  exact planned_of_planFields h hfields

end Plan

/-! ### The check -/

/-- Every call works, and the firmware has no changes of its own. -/
def works (drops : Bool) : Effects Call Unit Store := fun a _ s => Store.exec drops a .none s

/-- The check refuses the changes as a concurrent edit, although every call works. -/
def Refused (drops : Bool) (changes : List Change) (s : Store) : Prop :=
  ∃ answers s', (check changes).play (works drops) answers s =
    some (some (.error changedError), s')

/-- An option does not read as the text its change was planned on. -/
def Differs (s : Store) (c : Change) : Prop :=
  ∃ value, s.live c.key = some value ∧ getText (getOutput value) ≠ c.before

/-- The tool's complaint about a missing option is another text. -/
theorem notFound_ne (key : String) :
    "uci get " ++ key ++ ": uci: Entry not found\n" ≠ changedError := by
  intro h
  have hhead := congrArg (fun s : String => s.toList.head?) h
  simp [changedError] at hhead

section Check

variable {drops : Bool} {s : Store}

theorem yields_checkConfigs (packages : List String) :
    (checkConfigs packages).Yields (works drops) s (.ok ()) s := by
  induction packages with
  | nil => exact .pure
  | cons config rest ih =>
    refine .act (e := ()) (r := .ok true) rfl ?_
    exact ih

theorem yields_uciGet {key : String} {value : Bytes} (h : s.live key = some value) :
    (uciGet key).Yields (works drops) s (.ok (getText (getOutput value))) s := by
  have hread : works drops (.get key) () s = some (.ok (getOutput value), s) := by
    simp only [works, Store.exec, h]
  exact .act hread .pure

theorem upholds_uciGet (key : String) :
    (uciGet key).Upholds (works drops) (fun _ => true) (fun _ => True) (fun r s' => s' = s ∧
      ((∃ value, s.live key = some value ∧ r = .ok (getText (getOutput value))) ∨
        r = .error ("uci get " ++ key ++ ": uci: Entry not found\n"))) s := by
  refine .act trivial fun e r s' _ he => ?_
  cases hlive : s.live key with
  | none =>
    simp only [works, Store.exec, hlive] at he
    cases he
    exact .pure trivial ⟨rfl, .inr rfl⟩
  | some value =>
    simp only [works, Store.exec, hlive] at he
    cases he
    exact .pure trivial ⟨rfl, .inl ⟨value, rfl, rfl⟩⟩

/-- What is refused differs. -/
theorem upholds_checkValues_works (changes : List Change) :
    (checkValues changes).Upholds (works drops) (fun _ => true) (fun _ => True)
      (fun r _ => r = .error changedError → ∃ c ∈ changes, Differs s c) s := by
  induction changes with
  | nil => exact .pure trivial fun h => by cases h
  | cons change rest ih =>
    refine .bind (upholds_uciGet change.key) fun r s' _ h => ?_
    obtain ⟨rfl, ⟨value, hvalue, rfl⟩ | rfl⟩ := h
    · dsimp only
      generalize htext : getText (getOutput value) = text
      split
      · rename_i hne
        rw [← htext] at hne
        exact .pure trivial fun _ => ⟨change, List.mem_cons_self, value, hvalue, hne⟩
      · refine ih.mono fun r _ _ hrest hr => ?_
        obtain ⟨c, hc, hdiffers⟩ := hrest hr
        exact ⟨c, List.mem_cons_of_mem _ hc, hdiffers⟩
    · exact .pure trivial fun h => absurd (Except.error.inj h) (notFound_ne _)

/-- What differs is refused, if every option is there. -/
theorem yields_checkValues {changes : List Change}
    (hthere : ∀ c ∈ changes, ∃ value, s.live c.key = some value)
    (hdiffers : ∃ c ∈ changes, Differs s c) :
    (checkValues changes).Yields (works drops) s (.error changedError) s := by
  induction changes with
  | nil =>
    obtain ⟨c, hc, -⟩ := hdiffers
    cases hc
  | cons change rest ih =>
    obtain ⟨value, hvalue⟩ := hthere change List.mem_cons_self
    refine .bind (yields_uciGet hvalue) ?_
    dsimp only
    generalize htext : getText (getOutput value) = text
    rcases eq_or_ne text change.before with hsame | hsame
    · rw [if_neg (not_not.mpr hsame)]
      refine ih (fun c hc => hthere c (List.mem_cons_of_mem _ hc)) ?_
      obtain ⟨c, hc, hd⟩ := hdiffers
      rcases List.mem_cons.mp hc with rfl | hc
      · obtain ⟨v, hv, hne⟩ := hd
        rw [hvalue] at hv
        obtain rfl := Option.some.inj hv
        exact absurd (htext.trans hsame) hne
      · exact ⟨c, hc, hd⟩
    · rw [if_pos hsame]
      exact .pure

/-- What the check refuses. -/
theorem differs_of_refused {changes : List Change} (h : Refused drops changes s) :
    ∃ c ∈ changes, Differs s c := by
  obtain ⟨answers, s', hplay⟩ := h
  have hcheck : (check changes).Upholds (works drops) (fun _ => true) (fun _ => True)
      (fun r _ => r = .error changedError → ∃ c ∈ changes, Differs s c) s := by
    refine .bind (R := fun r s' => s' = s ∧ r = .ok ()) ?_ fun r s' _ h => ?_
    · generalize configs changes = packages
      induction packages with
      | nil => exact .pure trivial ⟨rfl, rfl⟩
      | cons config rest ih =>
        refine .act trivial fun e r s' _ he => ?_
        cases he
        exact ih
    · obtain ⟨rfl, rfl⟩ := h
      exact upholds_checkValues_works changes
  exact (hcheck.play (fun _ _ => rfl) hplay).2 _ rfl rfl

theorem refused_of_differs {changes : List Change}
    (hthere : ∀ c ∈ changes, ∃ value, s.live c.key = some value)
    (hdiffers : ∃ c ∈ changes, Differs s c) : Refused drops changes s := by
  have hcheck : (check changes).Yields (works drops) s (.error changedError) s := by
    refine .bind (yields_checkConfigs (configs changes)) ?_
    exact yields_checkValues hthere hdiffers
  obtain ⟨answers, hplay⟩ := hcheck.play
  exact ⟨answers, s, hplay⟩

/-- A plan is refused only where an option was changed, exactly if no option it changes has white
space at its ends. -/
theorem refused_iff_of_plan {changes : List Change} (hplanned : ∀ c ∈ changes, Planned s.live c) :
    (∀ s', Refused drops changes s' → ∃ c ∈ changes, s'.live c.key ≠ s.live c.key) ↔
      ∀ c ∈ changes, ∀ value, s.live c.key = some value → Trimmed (fromUtf8Lossy value) := by
  constructor
  · intro h c hc value hvalue
    by_contra huntrimmed
    have hthere : ∀ c ∈ changes, ∃ value, s.live c.key = some value := fun c hc =>
      (hplanned c hc).imp fun _ hv => hv.1
    have hdiffers : Differs s c := by
      obtain ⟨v, hv, hbefore⟩ := hplanned c hc
      rw [hvalue] at hv
      obtain rfl := Option.some.inj hv
      refine ⟨value, hvalue, ?_⟩
      rw [hbefore, ne_eq, getText_getOutput_eq_iff]
      exact huntrimmed
    -- The store itself is a store in which nothing was changed.
    obtain ⟨c', -, hchanged⟩ := h s (refused_of_differs hthere ⟨c, hc, hdiffers⟩)
    exact hchanged rfl
  · intro h s' hrefused
    obtain ⟨c, hc, value, hvalue, hne⟩ := differs_of_refused hrefused
    refine ⟨c, hc, fun hsame => ?_⟩
    obtain ⟨v, hv, hbefore⟩ := hplanned c hc
    rw [hsame, hv] at hvalue
    obtain rfl := Option.some.inj hvalue
    rw [hbefore, ne_eq, getText_getOutput_eq_iff] at hne
    exact hne (h c hc v hv)

end Check

/-! ### The two readers -/

/-- The changes of a request for one field are changes of its option. -/
theorem key_of_planWifi {live : String → Option Bytes} {cfg : WifiConfig} (h : Snapshot live cfg)
    {field path : String} (hfield : wifiFields.lookup field = some path) {value : Value}
    {changes : List Change} (hok : planWifi (.obj [(field, value)]) cfg = .ok changes) :
    ∀ c ∈ changes, c.key = path := by
  have hswitch : ¬(field = wifiOnoffKey ∨ field = wifi6SwitchKey) := by
    have honoff : wifiFields.lookup wifiOnoffKey = none := by decide
    have hwifi6 : wifiFields.lookup wifi6SwitchKey = none := by decide
    rintro (rfl | rfl)
    · rw [honoff] at hfield
      cases hfield
    · rw [hwifi6] at hfield
      cases hfield
  have hpaths : pathsOf field cfg = .ok [path] := by
    rw [pathsOf, if_neg hswitch, hfield]
  obtain ⟨fields, hfields, hplan⟩ := planFields_of_planWifi hok
  obtain rfl := Value.obj.inj hfields
  rw [planFields] at hplan
  intro c hc
  split at hplan
  · cases hplan
  · rename_i first hfirst
    simp only [planFields, List.append_nil, Except.ok.injEq] at hplan
    subst hplan
    obtain ⟨⟨paths, hpaths', hmem⟩, -⟩ := planned_of_planField h hfirst c hc
    rw [hpaths] at hpaths'
    obtain rfl := Except.ok.inj hpaths'
    exact List.mem_singleton.mp hmem

/-- **An option reads the same both ways** exactly if its value, decoded, has no white space at its
ends. Exactly then a planned change of it is refused only where the configuration was changed; and a
value that was set can be changed again exactly if it has no white space at its ends. -/
theorem wifi_reads_agree (drops : Bool) (s : Store) :
    (∀ package ls, Listing s.live package ls → ∀ tail value, .option tail value ∈ ls →
      ((uciShow package (some (showOutput package ls))).lookup tail =
          some (getText (getOutput value)) ↔ Trimmed (fromUtf8Lossy value))) ∧
    (∀ cfg request changes, Snapshot s.live cfg → planWifi request cfg = .ok changes →
      ((∀ s', Refused drops changes s' → ∃ c ∈ changes, s'.live c.key ≠ s.live c.key) ↔
        ∀ c ∈ changes, ∀ value, s.live c.key = some value → Trimmed (fromUtf8Lossy value))) ∧
    ∀ cfg field path text request changes, wifiFields.lookup field = some path →
      s.live path = some (utf8 text) → Snapshot s.live cfg →
      planWifi (.obj [(field, request)]) cfg = .ok changes → changes ≠ [] →
      (¬Refused drops changes s ↔ Trimmed text) := by
  refine ⟨fun package ls h tail value hmem => ?_, fun cfg request changes h hok => ?_,
    fun cfg field path text request changes hfield hlive h hok hne => ?_⟩
  · rw [lookup_uciShow h (h.plain _ hmem).2.2.1, (h.complete tail value).mp hmem, Option.map_some,
      Option.some_inj, eq_comm, getText_getOutput_eq_iff]
  · exact refused_iff_of_plan (planned_of_planWifi h hok)
  · have hplanned := planned_of_planWifi h hok
    have hkeys := key_of_planWifi h hfield hok
    have htext : ∀ c ∈ changes, s.live c.key = some (utf8 text) := fun c hc => by
      rw [hkeys c hc, hlive]
    constructor
    · intro hnot
      by_contra huntrimmed
      obtain ⟨c, hc⟩ := List.exists_mem_of_ne_nil changes hne
      refine hnot (refused_of_differs (fun c hc => ⟨_, htext c hc⟩) ⟨c, hc, _, htext c hc, ?_⟩)
      obtain ⟨v, hv, hbefore⟩ := hplanned c hc
      rw [htext c hc] at hv
      obtain rfl := Option.some.inj hv
      rw [hbefore, ne_eq, getText_getOutput_eq_iff, fromUtf8Lossy_utf8]
      exact huntrimmed
    · intro htrimmed hrefused
      have hall : ∀ c ∈ changes, ∀ value, s.live c.key = some value →
          Trimmed (fromUtf8Lossy value) := by
        intro c hc value hvalue
        rw [htext c hc] at hvalue
        obtain rfl := Option.some.inj hvalue
        rw [fromUtf8Lossy_utf8]
        exact htrimmed
      obtain ⟨c, -, hchanged⟩ := (refused_iff_of_plan hplanned).mpr hall s hrefused
      exact hchanged rfl

/-! ### A network's name -/

namespace Household

/-- A store with one network. -/
def store (name : String) : Store where
  live key := if key = "wireless.main_2g.ssid" then some (utf8 name) else none

theorem live_store (name key : String) : (store name).live key =
    if key = "wireless.main_2g.ssid" then some (utf8 name) else none := rfl

/-- The option's name, put together. -/
theorem key_eq : "wireless.main_2g.ssid" = "wireless" ++ "." ++ "main_2g.ssid" := by decide

/-- The lines of its package. -/
def package (name : String) : List Line := [.option "main_2g.ssid" (utf8 name)]

theorem listing_package {name : String} (h : newline ∉ utf8 name) :
    Listing (store name).live "wireless" (package name) where
  name := ⟨by decide, by decide⟩
  plain line hline := by
    obtain rfl := List.mem_singleton.mp hline
    exact ⟨by decide, by decide, by decide, h⟩
  complete tail value := by
    have hkey : "wireless" ++ "." ++ tail = "wireless.main_2g.ssid" ↔ tail = "main_2g.ssid" := by
      rw [key_eq, String.append_right_inj]
    simp only [package, List.mem_singleton, Line.option.injEq, store, hkey]
    constructor
    · rintro ⟨rfl, rfl⟩
      rfl
    · intro hlive
      split at hlive
      · exact ⟨‹_›, (Option.some.inj hlive).symm⟩
      · cases hlive

theorem listing_mbb (name : String) : Listing (store name).live "zte_mbb" [] where
  name := ⟨by decide, by decide⟩
  plain line hline := by cases hline
  complete tail value := by
    have hkey : "zte_mbb" ++ "." ++ tail ≠ "wireless.main_2g.ssid" := by
      intro h
      have hhead := congrArg (fun s : String => s.toList.head?) h
      rw [String.toList_append, String.toList_append, List.append_assoc] at hhead
      cases hhead
    rw [live_store, if_neg hkey]
    simp

/-- What a request is planned on. -/
def config (name : String) : WifiConfig :=
  .load (some (showOutput "wireless" (package name))) (some (showOutput "zte_mbb" []))

theorem snapshot_config {name : String} (h : newline ∉ utf8 name) :
    Snapshot (store name).live (config name) :=
  ⟨package name, [], listing_package h, listing_mbb name, rfl⟩

/-- The change to another name. -/
def rename (name : String) : List Change :=
  [{ key := "wireless.main_2g.ssid", before := name, after := "home" }]

theorem plan_rename {name : String} (h : newline ∉ utf8 name) (hne : name ≠ "home") :
    planWifi (.obj [("ssid_2g", .str "home")]) (config name) = .ok (rename name) := by
  have hknown : "wireless.main_2g.ssid" ∈ knownPaths := by decide
  have hread := lookup_package (snapshot_config h) hknown
  rw [live_store, if_pos rfl, Option.map_some, fromUtf8Lossy_utf8] at hread
  have hvalue : wifiValue "ssid_2g" (.str "home") (config name) = .ok "home" := rfl
  have hpaths : pathsOf "ssid_2g" (config name) = .ok ["wireless.main_2g.ssid"] := rfl
  have hchanges : changesOf "ssid_2g" "home" (config name) ["wireless.main_2g.ssid"] =
      .ok (rename name) := by
    rw [changesOf, hread]
    simp [changesOf, hne, rename]
  have hfields : planFields (config name) [("ssid_2g", .str "home")] = .ok (rename name) := by
    have hkey : ¬(startsWith "ssid_2g" "key_" = true ∧
      (Value.str "home").asStr = some maskedKey) := by
      decide
    simp [planFields, planField, hpaths, hkey, hvalue, hchanges]
  simp [planWifi, hfields, checkKey]

end Household

open Household in
/-- A name with a quote in it reads the same both ways, and can be changed. -/
theorem wifi_reads_agree_sample :
    (uciShow "wireless" (some (showOutput "wireless" (package "it's")))).lookup "main_2g.ssid" =
      some (getText (getOutput (utf8 "it's"))) ∧
    ¬Refused true (rename "it's") (store "it's") := by
  have hplain : newline ∉ utf8 "it's" := by decide
  have htrimmed : Trimmed "it's" := (trim_eq_self_iff _).mp rfl
  obtain ⟨hread, -, hchange⟩ := wifi_reads_agree true (store "it's")
  constructor
  · refine (hread _ _ (listing_package hplain) _ _ List.mem_cons_self).mpr ?_
    rw [fromUtf8Lossy_utf8]
    exact htrimmed
  · exact (hchange (config "it's") "ssid_2g" _ "it's" _ _ rfl rfl
      (snapshot_config hplain) (plan_rename hplain (by decide)) (by simp [rename])).mpr htrimmed

open Household in
/-- A name with a space in front is accepted, reads differently both ways, and its change is refused
although nobody changed anything. -/
theorem leading_space_refused :
    wifiValue "ssid_2g" (.str " cafe") (config " cafe") = .ok " cafe" ∧
    ¬(∀ live package ls, Listing live package ls → ∀ tail value, .option tail value ∈ ls →
      (uciShow package (some (showOutput package ls))).lookup tail =
        some (getText (getOutput value))) ∧
    ¬∀ drops (s : Store) cfg request changes, Snapshot s.live cfg →
      planWifi request cfg = .ok changes →
      ∀ s', Refused drops changes s' → ∃ c ∈ changes, s'.live c.key ≠ s.live c.key := by
  have hplain : newline ∉ utf8 " cafe" := by decide
  have hspace : ¬Trimmed " cafe" := fun h => absurd (h.front ' ' (by decide)) (by decide)
  have hread : ¬Trimmed (fromUtf8Lossy (utf8 " cafe")) := by
    rw [fromUtf8Lossy_utf8]
    exact hspace
  have hlisting := listing_package hplain
  refine ⟨rfl, fun h => ?_, fun h => ?_⟩
  · have hsame := h _ _ _ hlisting "main_2g.ssid" _ List.mem_cons_self
    rw [lookup_uciShow hlisting (by decide), (hlisting.complete _ _).mp List.mem_cons_self,
      Option.map_some, Option.some_inj, eq_comm, getText_getOutput_eq_iff] at hsame
    exact hread hsame
  · have hplan := plan_rename hplain (by decide)
    have hplanned := planned_of_planWifi (snapshot_config hplain) hplan
    have hrefused := h true _ _ _ _ (snapshot_config hplain) hplan
    have hall := (refused_iff_of_plan hplanned).mp hrefused
    exact hread (hall _ List.mem_cons_self (utf8 " cafe") rfl)

end OpenUI.Agent.Wifi
