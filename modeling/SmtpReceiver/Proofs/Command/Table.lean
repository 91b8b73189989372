import Mathlib.Data.List.Induction
import SmtpReceiver.Auth.Composite
import SmtpReceiver.Command.Table
import SmtpReceiver.Delivery.Fanout
import SmtpReceiver.Proofs.Text.Sorted

/-!
# How a table is put together

A table of commands is put together by changes.  A `Change` empties the table, adds a
command, or removes the command of a verb.  What stands under a name is decided by the
last change that concerns the name (`LastAdded`).  Of the earlier ones nothing shows.

The help texts are collected from the commands in an order of which nothing is known.
The order does not show either, as long as no command has the help text of another one
(`HelpsItself`).  Each text is then found under the name of its command, and the summary
lists these names.
-/

namespace SmtpReceiver

open Auth (Authenticator PlainLogin)
open Delivery (Fanout Handler)
open Text (Lookup upper)

variable {α δ : Type}

/-! ## Changes -/

/-- One change of a table. -/
inductive Change (α δ : Type) where
  /-- All commands go. -/
  | clear
  /-- A command comes, in place of one of the same verb. -/
  | add (c : Command α δ)
  /-- The command of a verb goes, whatever the case of its letters. -/
  | remove (verb : String)

/-- The change decides what stands under a name. -/
def Change.concerns (name : String) : Change α δ → Prop
  | clear => True
  | add c => upper c.name = name
  | remove verb => upper verb = name

/-- The command was added under the name, and no change behind that concerns the name. -/
def LastAdded (changes : List (Change α δ)) (name : String) (c : Command α δ) : Prop :=
  ∃ before after, changes = before ++ .add c :: after ∧ upper c.name = name ∧
    ∀ change ∈ after, ¬change.concerns name

namespace LastAdded

variable {changes : List (Change α δ)} {change : Change α δ} {name : String} {c : Command α δ}

theorem not_nil : ¬LastAdded [] name c := by
  rintro ⟨before, after, heq, -⟩
  cases before with
  | nil => cases heq
  | cons first rest => cases heq

theorem concat_iff : LastAdded (changes ++ [change]) name c ↔
    (change = .add c ∧ upper c.name = name) ∨
      (¬change.concerns name ∧ LastAdded changes name c) := by
  constructor
  · rintro ⟨before, after, heq, hname, hafter⟩
    cases after using List.reverseRecOn with
    | nil =>
        obtain ⟨-, heq⟩ := List.append_inj' heq rfl
        exact .inl ⟨List.head_eq_of_cons_eq heq, hname⟩
    | append_singleton after last =>
        rw [← List.cons_append, ← List.append_assoc] at heq
        obtain ⟨rfl, hlast⟩ := List.append_inj' heq rfl
        obtain rfl : change = last := List.head_eq_of_cons_eq hlast
        refine .inr ⟨hafter change (by simp), before, after, rfl, hname, fun change' h => ?_⟩
        exact hafter change' (List.mem_append_left _ h)
  · rintro (⟨rfl, hname⟩ | ⟨hnot, before, after, rfl, hname, hafter⟩)
    · exact ⟨changes, [], rfl, hname, by simp⟩
    · refine ⟨before, after ++ [change], by simp, hname, fun change' h => ?_⟩
      obtain h | h := List.mem_append.1 h
      · exact hafter change' h
      · exact List.mem_singleton.1 h ▸ hnot

end LastAdded

namespace CommandTable

def change (t : CommandTable α δ) : Change α δ → CommandTable α δ
  | .clear => []
  | .add c => t.add c
  | .remove verb => t.remove verb

/-- The table that changes make of an empty one. -/
def built (changes : List (Change α δ)) : CommandTable α δ := changes.foldl change []

theorem built_concat (changes : List (Change α δ)) (change : Change α δ) :
    built (changes ++ [change]) = (built changes).change change := by
  simp only [built, List.foldl_append, List.foldl_cons, List.foldl_nil]

/-- The table of the receiver is built by adding its commands. -/
theorem builtin_eq_built [Authenticator α] [Handler δ] :
    builtin (α := α) (δ := δ) = built (builtinCommands.map .add) := by
  rw [built, List.foldl_map]
  rfl

theorem command?_change (t : CommandTable α δ) (change : Change α δ) (name : String)
    (c : Command α δ) :
    (t.change change).command? name = some c ↔
      (change = .add c ∧ upper c.name = name) ∨
        (¬change.concerns name ∧ t.command? name = some c) := by
  cases change with
  | clear =>
      have hnot : ¬(¬(Change.clear : Change α δ).concerns name) := fun h => h trivial
      simp only [reduceCtorEq, false_and, hnot, false_or, iff_false]
      exact nofun
  | add c' =>
      have hget := Lookup.get?_insert (upper c'.name) name c' t
      show Lookup.get? name (Lookup.insert (upper c'.name) c' t) = some c ↔ _
      rw [hget]
      by_cases hname : name = upper c'.name
      · subst hname
        have hnot : ¬¬(Change.add c').concerns (upper c'.name) := not_not_intro rfl
        simp only [if_true, hnot, false_and, or_false, Option.some.injEq, Change.add.injEq]
        exact ⟨fun h => ⟨h, h ▸ rfl⟩, And.left⟩
      · have hnot : ¬(Change.add c').concerns name := fun h => hname h.symm
        simp only [if_neg hname, hnot, not_false_eq_true, true_and, Change.add.injEq]
        refine ⟨.inr, fun h => h.resolve_left ?_⟩
        rintro ⟨rfl, h⟩
        exact hnot h
  | remove verb =>
      have hget := Lookup.get?_erase (upper verb) name t
      show Lookup.get? name (Lookup.erase (upper verb) t) = some c ↔ _
      rw [hget]
      by_cases hname : name = upper verb
      · have hnot : ¬¬(Change.remove verb : Change α δ).concerns name := not_not_intro hname.symm
        simp only [if_pos hname, hnot, false_and, or_false, reduceCtorEq]
      · have hnot : ¬(Change.remove verb : Change α δ).concerns name := fun h => hname h.symm
        simp only [if_neg hname, hnot, not_false_eq_true, true_and, reduceCtorEq, false_and,
          false_or]
        exact Iff.rfl

/-- What stands under a name is the command that was added there last. -/
theorem command?_built (changes : List (Change α δ)) (name : String) (c : Command α δ) :
    (built changes).command? name = some c ↔ LastAdded changes name c := by
  induction changes using List.reverseRecOn with
  | nil => exact iff_of_false nofun LastAdded.not_nil
  | append_singleton changes change ih =>
      rw [built_concat, command?_change, LastAdded.concat_iff, ih]

theorem sorted_built (changes : List (Change α δ)) : (built changes).Sorted := by
  induction changes using List.reverseRecOn with
  | nil => exact Lookup.sorted_nil
  | append_singleton changes change ih =>
      rw [built_concat]
      cases change with
      | clear => exact Lookup.sorted_nil
      | add c => exact ih.insert _ _
      | remove verb => exact ih.erase _

theorem mem_verbs {t : CommandTable α δ} {name : String} :
    name ∈ t.verbs ↔ ∃ c, t.command? name = some c := Lookup.mem_names

/-! ## Help texts -/

/-- The commands of a table. -/
def commands (t : CommandTable α δ) : List (Command α δ) := t.map Prod.snd

end CommandTable

/-- The help texts of commands.  Of two texts of one name the later counts. -/
def HelpTable.ofCommands (cs : List (Command α δ)) : HelpTable :=
  .ofTexts (cs.filterMap Command.help)

/-- The help text of the command is about the command. -/
def Command.HelpsItself (c : Command α δ) : Prop :=
  ∀ text, c.help = some text → upper text.name = upper c.name

namespace CommandTable

/-- The table collects the help texts in the order of the verbs. -/
theorem help_eq_ofCommands (t : CommandTable α δ) : t.help = .ofCommands t.commands := by
  rw [HelpTable.ofCommands, commands, List.filterMap_map]
  rfl

theorem helpsItself_of_builtin [Authenticator α] [Handler δ] :
    ∀ c ∈ builtinCommands (α := α) (δ := δ), c.HelpsItself := by
  simp only [builtinCommands, List.forall_mem_cons]
  refine ⟨?_, ?_, ?_, ?_, ?_, ?_, ?_, ?_, ?_, ?_, ?_, ?_, List.forall_mem_nil _⟩
  all_goals rintro _ ⟨⟩
  all_goals rfl

/-- Each command stands under its verb, and has no help text but its own. -/
structure Proper (t : CommandTable α δ) : Prop where
  sorted : t.Sorted
  name : ∀ name c, t.command? name = some c → upper c.name = name
  help : ∀ name c, t.command? name = some c → c.HelpsItself

theorem proper_built {changes : List (Change α δ)}
    (hself : ∀ c, .add c ∈ changes → c.HelpsItself) : (built changes).Proper where
  sorted := sorted_built changes
  name name c h := by
    obtain ⟨before, after, -, hname, -⟩ := (command?_built changes name c).1 h
    exact hname
  help name c h := by
    obtain ⟨before, after, rfl, -, -⟩ := (command?_built changes name c).1 h
    exact hself c (by simp)

namespace Proper

variable {t : CommandTable α δ} {order : List (Command α δ)}

/-- The names of the help texts rise with the verbs, so no two of them are the same. -/
theorem nodup_names (h : t.Proper) (horder : order.Perm t.commands) :
    ((order.filterMap Command.help).map fun text => upper text.name).Nodup := by
  have hrise : (t.filterMap fun e => e.2.help).Pairwise fun text text' =>
      upper text.name < upper text'.name := by
    have hnames : t.Pairwise fun e e' =>
        upper e.2.name < upper e'.2.name ∧ e.2.HelpsItself ∧ e'.2.HelpsItself := by
      refine List.Pairwise.imp_of_mem (fun {e e'} he he' hlt => ?_) h.sorted
      have he := h.sorted.mem_iff.1 he
      have he' := h.sorted.mem_iff.1 he'
      rw [h.name _ _ he, h.name _ _ he']
      exact ⟨hlt, h.help _ _ he, h.help _ _ he'⟩
    refine hnames.filterMap _ fun e e' ⟨hlt, hself, hself'⟩ text htext text' htext' => ?_
    rw [hself text htext, hself' text' htext']
    exact hlt
  have hperm : (order.filterMap Command.help).Perm (t.filterMap fun e => e.2.help) := by
    have hperm := horder.filterMap Command.help
    rwa [commands, List.filterMap_map] at hperm
  refine ((hperm.map _).nodup_iff).2 (List.pairwise_map.2 (hrise.imp fun hlt heq => ?_))
  exact String.lt_irrefl _ (heq ▸ hlt)

/-- Under the verb of a command stands its help text, in whatever order the texts were collected. -/
theorem get?_ofCommands (h : t.Proper) (horder : order.Perm t.commands) (name : String) :
    Lookup.get? name (HelpTable.ofCommands order) = (t.command? name).bind Command.help := by
  have hfrom : name ∉ (order.filterMap Command.help).map (fun text => upper text.name) →
      Lookup.get? name (HelpTable.ofCommands order) = none :=
    fun hnot => Lookup.get?_foldl_insert_of_notMem hnot []
  have hnames : ∀ text ∈ order.filterMap Command.help, upper text.name = name →
      ∃ c, t.command? name = some c ∧ c.help = some text := by
    rintro text htext rfl
    obtain ⟨c, hc, htext⟩ := List.mem_filterMap.1 htext
    obtain ⟨⟨name, c⟩, he, rfl⟩ := List.mem_map.1 (horder.mem_iff.1 hc)
    have he : t.command? name = some c := h.sorted.mem_iff.1 he
    rw [h.help name c he text htext, h.name name c he]
    exact ⟨c, he, htext⟩
  cases hc : t.command? name with
  | none =>
      refine hfrom fun hmem => ?_
      obtain ⟨text, htext, hname⟩ := List.mem_map.1 hmem
      obtain ⟨c, hc', -⟩ := hnames text htext hname
      rw [hc] at hc'
      cases hc'
  | some c =>
      rw [Option.bind_some]
      cases hhelp : c.help with
      | none =>
          refine hfrom fun hmem => ?_
          obtain ⟨text, htext, hname⟩ := List.mem_map.1 hmem
          obtain ⟨c', hc', hhelp'⟩ := hnames text htext hname
          obtain rfl := Option.some.inj (hc.symm.trans hc')
          rw [hhelp] at hhelp'
          cases hhelp'
      | some text =>
          have hmem : c ∈ order :=
            horder.mem_iff.2 (List.mem_map_of_mem (h.sorted.mem_iff.2 hc))
          have htext : text ∈ order.filterMap Command.help := List.mem_filterMap.2 ⟨c, hmem, hhelp⟩
          have hname : upper text.name = name :=
            (h.help name c hc text hhelp).trans (h.name name c hc)
          rw [← hname]
          exact Lookup.get?_foldl_insert (h.nodup_names horder) htext []

/-- The order in which the help texts are collected leaves no trace. -/
theorem ofCommands_eq (h : t.Proper) (horder : order.Perm t.commands) :
    HelpTable.ofCommands order = t.help := by
  rw [help_eq_ofCommands]
  refine Lookup.Sorted.eq_of_get? (Lookup.Sorted.foldl_insert _ _ Lookup.sorted_nil)
    (Lookup.Sorted.foldl_insert _ _ Lookup.sorted_nil) fun name => ?_
  exact (h.get?_ofCommands horder name).trans (h.get?_ofCommands (.refl _) name).symm

end Proper

end CommandTable

/-! ## The summary -/

/-- The topic of a line that stands in the list of topics, two blanks from the left. -/
def Reply.topic? (line : String) : Option String :=
  match line.toList with
  | ' ' :: ' ' :: cs => some (String.ofList cs)
  | _ => none

/-- The topics that a reply lists. -/
def Reply.listed (r : Reply) : List String := r.lines.filterMap topic?

theorem Reply.topic?_indented (topic : String) : topic? ("  " ++ topic) = some topic := by
  rw [topic?, String.toList_append]
  exact congrArg some (String.ofList_toList)

/-- A line that does not begin with a blank is not in the list. -/
theorem Reply.topic?_append {start : String} (hstart : topic? start = none)
    (hlong : 2 ≤ start.toList.length) (rest : String) : topic? (start ++ rest) = none := by
  rw [topic?] at hstart ⊢
  rw [String.toList_append]
  generalize start.toList = cs at hstart hlong
  obtain _ | ⟨a, _ | ⟨b, cs⟩⟩ := cs
  · cases hlong
  · exact absurd hlong (Nat.not_succ_le_self 1)
  · rw [List.cons_append, List.cons_append]
    split
    next heq =>
      injection heq with ha heq
      injection heq with hb
      subst ha hb
      cases hstart
    next => rfl

/-- The summary lists the topics, and nothing else. -/
theorem HelpTable.listed_summary (help : HelpTable) (settings : Settings) :
    (help.summary settings).listed = help.topics := by
  have htopics : (help.topics.map ("  " ++ ·)).filterMap Reply.topic? = help.topics := by
    rw [List.filterMap_map]
    exact (List.filterMap_congr fun topic _ => Reply.topic?_indented topic).trans
      List.filterMap_some
  have hhead : Reply.topic? ("This is " ++ Settings.productVersion ++ " server running on "
      ++ settings.hostName) = none := by
    have hstart : Reply.topic? "This is " = none := by decide
    rw [String.append_assoc, String.append_assoc]
    exact Reply.topic?_append hstart (by decide) _
  have hfixed : ∀ line ∈ ["Available commands:", "For more info use \"HELP <command>\".",
      "For local information send email to Postmaster at your site.", "End of HELP info"],
      Reply.topic? line = none := by decide
  simp only [List.forall_mem_cons] at hfixed
  obtain ⟨havailable, hmore, hlocal, hend, -⟩ := hfixed
  simp only [Reply.listed, HelpTable.summary, List.filterMap_append, List.filterMap_cons,
    List.filterMap_nil, hhead, havailable, hmore, hlocal, hend, htopics, List.nil_append,
    List.append_nil]

/-! ## Tables put together -/

/-- Under a name stands the command that was added there last, and the verbs are the names with a
command, in rising order.  In whatever order the help texts are collected, the same help table comes
of it.  Each text is found under every spelling of the verb of its command, and a bare `HELP` lists
the verbs of the commands that have one.  Changes with the same last additions make the same
table. -/
theorem table_of_changes (changes : List (Change α δ))
    (hself : ∀ c, .add c ∈ changes → c.HelpsItself) :
    let t := CommandTable.built changes
    (∀ name c, t.command? name = some c ↔ LastAdded changes name c) ∧
    (∀ name, Lookup.contains name t = true ↔ ∃ c, LastAdded changes name c) ∧
    t.verbs.Pairwise (· < ·) ∧ (∀ name, name ∈ t.verbs ↔ ∃ c, LastAdded changes name c) ∧
    (∀ order : List (Command α δ), order.Perm t.commands → HelpTable.ofCommands order = t.help) ∧
    (∀ topic text, t.help.topic? topic = some text ↔
      ∃ c, LastAdded changes (upper topic) c ∧ c.help = some text) ∧
    (∀ (s : Session α δ) line, CommandLine.predicate line = "" →
      ∃ r, (Command.helpMe.run t.directory line s).answer = .ok r ∧
        r.listed.Pairwise (· < ·) ∧
        ∀ name, name ∈ r.listed ↔ ∃ c text, LastAdded changes name c ∧ c.help = some text) ∧
    ∀ changes', (∀ name c, LastAdded changes' name c ↔ LastAdded changes name c) →
      CommandTable.built changes' = t := by
  intro t
  have hproper : t.Proper := CommandTable.proper_built hself
  have hcommand : ∀ name c, t.command? name = some c ↔ LastAdded changes name c :=
    CommandTable.command?_built changes
  have hget : ∀ name text, Lookup.get? name t.help = some text ↔
      ∃ c, LastAdded changes name c ∧ c.help = some text := by
    intro name text
    rw [t.help_eq_ofCommands, hproper.get?_ofCommands (.refl _), Option.bind_eq_some_iff]
    exact exists_congr fun c => and_congr_left fun _ => hcommand name c
  refine ⟨hcommand, ?_, hproper.sorted.names, ?_, ?_, ?_, ?_, ?_⟩
  · intro name
    rw [Lookup.contains, Option.isSome_iff_exists]
    exact exists_congr (hcommand name)
  · intro name
    rw [CommandTable.mem_verbs]
    exact exists_congr (hcommand name)
  · exact fun order horder => hproper.ofCommands_eq horder
  · exact fun topic text => hget (upper topic) text
  · intro s line hline
    have hrun : (Command.helpMe.run t.directory line s).answer
        = .ok (t.help.summary s.settings) := by
      simp only [Command.helpMe, hline, if_true]
      rfl
    refine ⟨_, hrun, ?_, fun name => ?_⟩
    · rw [HelpTable.listed_summary]
      exact Lookup.Sorted.names (Lookup.Sorted.foldl_insert _ _ Lookup.sorted_nil)
    · rw [HelpTable.listed_summary, HelpTable.topics, Lookup.mem_names, exists_comm]
      exact exists_congr fun text => hget name text
  · intro changes' hsame
    refine Lookup.Sorted.eq_of_get? (CommandTable.sorted_built changes') hproper.sorted ?_
    intro name
    refine Option.ext fun c => ?_
    exact (CommandTable.command?_built changes' name c).trans
      ((hsame name c).trans (hcommand name c).symm)

/-- A prepared command that says how it is used stands in for `VRFY`, and TLS is not to be had. -/
theorem table_of_changes_vrfy :
    let vrfy : Command PlainLogin (Fanout Unit) :=
      .prepared
        { name := "vrfy"
          help := some ⟨"Vrfy", "<user>", "Says nothing."⟩
          reply := .line .ok "Ok" }
    let changes : List (Change PlainLogin (Fanout Unit)) :=
      CommandTable.builtinCommands.map .add ++ [.add vrfy, .remove "startTls"]
    (∀ c, .add c ∈ changes → c.HelpsItself) ∧
      (CommandTable.built changes).command? "VRFY" = some vrfy ∧
      Verb.startTls ∉ (CommandTable.built changes).verbs ∧
      (CommandTable.built changes).help.topic? "vRfY" = vrfy.help := by
  intro vrfy changes
  have hself : ∀ c, .add c ∈ changes → c.HelpsItself := by
    intro c hc
    obtain hc | hc := List.mem_append.1 hc
    · obtain ⟨c', hc', heq⟩ := List.mem_map.1 hc
      obtain rfl := Change.add.inj heq
      exact CommandTable.helpsItself_of_builtin c' hc'
    · obtain hc | hc := List.mem_cons.1 hc
      · obtain rfl := Change.add.inj hc
        rintro _ ⟨⟩
        decide
      · cases List.mem_singleton.1 hc
  obtain ⟨hcommand, -, -, -, -, hhelp, -⟩ := table_of_changes changes hself
  have hadded : LastAdded changes "VRFY" vrfy := by
    refine ⟨CommandTable.builtinCommands.map .add, [.remove "startTls"], rfl, by decide, ?_⟩
    simp only [List.mem_singleton, forall_eq]
    show ¬upper "startTls" = "VRFY"
    decide
  exact ⟨hself, (hcommand _ _).2 hadded, by decide, (hhelp _ _).2 ⟨vrfy, hadded, rfl⟩⟩

end SmtpReceiver
