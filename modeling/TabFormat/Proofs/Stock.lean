import Mathlib.Data.List.Forall2
import TabFormat.Config
import TabFormat.Format
import TabFormat.Proofs.Arguments
import TabFormat.Proofs.Escaping

/-!
# The stock formats

An outline is filled from left to right: text is copied, an argument is filled and kept for the next
call, and a call is answered. A derivation of what an outline is filled with is the course of a run
that succeeds. For the formats that are offered unless others are configured there is such a
derivation whatever the tab is, and it tells their texts.

## Main definitions

* `Fills` : what an outline is filled with.
* `stockTexts` : the texts of the stock formats.

## Main results

* `Fills.runSteps`, `formatTab_of_fills` : what an outline is filled with is the result of the run.
* `formatTab_stock` : the stock formats and the escapes in them.
-/

namespace TabFormat

open Template

namespace Template

variable {ε : Type} {resolver : Resolver ε} {limit : Nat}

/-- The events of a text that lies `depth` levels deep are filled with a text, after arguments that
were filled before. -/
inductive Fills (resolver : Resolver ε) (limit : Nat) :
    Nat → List Text → List Event → Text → Prop
  | nil {depth args} : Fills resolver limit depth args [] []
  | copy {depth args} (s : Text) {rest filled}
      (hrest : Fills resolver limit depth args rest filled) :
      Fills resolver limit depth args (.copy s :: rest) (s ++ filled)
  | argument {depth args} (text : Text) (span : Span) {value rest filled}
      (hvalue : Fills resolver limit (depth + 1) [] (outline limit (depth + 1) text) value)
      (hrest : Fills resolver limit depth (args ++ [value]) rest filled) :
      Fills resolver limit depth args (.argument text span :: rest) filled
  | call {depth args} {name rawArgs answer : Text} {rest filled}
      (hanswer : resolver ⟨name, rawArgs, args⟩ = .ok answer)
      (hrest : Fills resolver limit depth [] rest filled) :
      Fills resolver limit depth args (.call name rawArgs :: rest) (answer ++ filled)

/-- **What an outline is filled with is the result of the run.** -/
theorem Fills.runSteps {depth : Nat} {args : List Text} {events : List Event} {filled : Text}
    (h : Fills resolver limit depth args events filled) (before : List Call) (input : Text) :
    ∃ args', (runSteps (fun _ => resolver) before args
      (events.map (Event.step limit depth input))).result = .ok (args', filled) := by
  induction h generalizing before input with
  | @nil depth args => exact ⟨args, by rw [List.map_nil, runSteps_nil]; rfl⟩
  | copy s _ ih =>
    obtain ⟨args', hrun⟩ := ih before input
    refine ⟨args', ?_⟩
    rw [List.map_cons, Event.step, runSteps_copy_cons, Run.result_map, hrun]
    rfl
  | @argument depth args text span value _ _ _ _ ihvalue ihrest =>
    obtain ⟨last, hvalue⟩ := ihvalue before text
    rw [← plan_eq] at hvalue
    rw [List.map_cons, runSteps_cons, Event.step, Step.run, runSteps_argument,
      Run.relocate_of_ok hvalue, Run.map_andThen, Run.andThen_of_ok hvalue]
    obtain ⟨args', hrun⟩ := ihrest (before ++ _) input
    exact ⟨args', by rw [Run.result_map, hrun]; rfl⟩
  | @call _ _ _ _ answer _ _ hanswer _ ih =>
    rw [List.map_cons, Event.step, runSteps_cons, Step.run, Call.run, hanswer, Run.map,
      Run.andThen_of_ok rfl]
    obtain ⟨args', hrun⟩ := ih (before ++ _) input
    exact ⟨args', by rw [Run.result_map, hrun]; rfl⟩

theorem Fills.of_eq {depth : Nat} {args : List Text} {events : List Event} {filled filled' : Text}
    (h : Fills resolver limit depth args events filled) (heq : filled = filled') :
    Fills resolver limit depth args events filled' :=
  heq ▸ h

/-- Where a field stands, the answer is what the field stands for. -/
theorem Fills.field {ctx : Context} {depth : Nat} {args : List Text} {name rawArgs : Text}
    {f : Field} {rest : List Event} {filled : Text} (hname : Builtin.lookup name = some (.field f))
    (hrest : Fills ctx.resolver limit depth [] rest filled) :
    Fills ctx.resolver limit depth args (.call name rawArgs :: rest)
      (ctx.field f ⟨name, rawArgs, args⟩ ++ filled) :=
  .call (by rw [Context.resolver, Context.answer, hname]; rfl) hrest

/-- Where a function of one argument stands, the argument is filled first. -/
theorem Fills.function {ctx : Context} {depth : Nat} {text name rawArgs value answer : Text}
    {span : Span} {f : Function} {rest : List Event} {filled : Text}
    (hname : Builtin.lookup name = some (.function f))
    (hvalue : Fills ctx.resolver limit (depth + 1) [] (outline limit (depth + 1) text) value)
    (hanswer : f.apply ⟨name, rawArgs, [value]⟩ = .ok answer)
    (hrest : Fills ctx.resolver limit depth [] rest filled) :
    Fills ctx.resolver limit depth [] (.argument text span :: .call name rawArgs :: rest)
      (answer ++ filled) := by
  refine .argument text span hvalue (.call ?_ hrest)
  rw [Context.resolver, Context.answer, hname]
  exact congrArg (Except.mapError Error.other) hanswer

end Template

/-- If a template that does not ask for rich text is filled, then this is the plain text. -/
theorem formatTab_of_fills {template filled : Text} {settings : Settings} {times : Times}
    {tab : Tab}
    (h : Fills (Context.resolver ⟨tab, settings.eol, times⟩) settings.maxDepth 0 []
      (outline settings.maxDepth 0 template) filled)
    (hrich : isRichText template = false) :
    (formatTab template settings times tab).result = .ok { plain := filled } := by
  obtain ⟨args, hrun⟩ := h.runSteps [] template
  rw [formatTab, Run.andThen_done, expand, consult, plan_eq, Run.map_map, Run.result_map, hrun,
    Except.map, Formatted.ofFilled, hrich]
  rfl

/-! ### The texts of the stock formats -/

/-- The link of a tab in HTML. -/
def htmlLink (tab : Tab) : Text :=
  ["<a title=\"".toList, Escape.html tab.title, "\" href=\"".toList, Escape.html tab.url,
    "\">".toList, Escape.html tab.title, "</a>".toList].flatten

/-- The link of a tab in Markdown. -/
def markdownLink (tab : Tab) : Text :=
  ["[".toList, Escape.markdown tab.title, "](".toList, tab.url, " \"".toList,
    Escape.markdownLinkTitle tab.title, "\")".toList].flatten

/-- The texts of the stock formats, in order. -/
def stockTexts (eol : Text) (tab : Tab) : List Text :=
  [tab.url,
   tab.title ++ eol ++ tab.url,
   htmlLink tab,
   markdownLink tab,
   (List.replicate tab.indentLevel [' ', ' ']).flatten ++ "* ".toList ++ markdownLink tab]

/-! ### The outlines of the stock formats -/

/-- What the reader yields for the link in HTML. -/
def htmlLinkOutline : List Event :=
  [.copy "<a".toList, .copy " ".toList, .copy "title=".toList, .copy "\"".toList,
   .argument "%TITLE%".toList ⟨10, 28⟩, .call "HTML_SAFE".toList "%TITLE%".toList,
   .copy "\"".toList, .copy " ".toList, .copy "href=".toList, .copy "\"".toList,
   .argument "%URL%".toList ⟨38, 54⟩, .call "HTML_SAFE".toList "%URL%".toList,
   .copy "\"".toList, .copy ">".toList, .argument "%TITLE%".toList ⟨58, 76⟩,
   .call "HTML_SAFE".toList "%TITLE%".toList, .copy "</a>".toList]

/-- What the reader yields for the link in Markdown. -/
def markdownLinkOutline (first second : Span) : List Event :=
  [.copy "[".toList, .argument "%TITLE%".toList first, .call "MD_SAFE".toList "%TITLE%".toList,
   .copy "]".toList, .copy "(".toList, .call "URL".toList [], .copy " ".toList,
   .copy "\"".toList, .argument "%TITLE%".toList second,
   .call "MD_LINK_TITLE_SAFE".toList "%TITLE%".toList, .copy "\"".toList, .copy ")".toList]

/-- What the reader yields for the stock formats, in order. -/
def stockOutlines : List (List Event) :=
  [[.call "URL".toList []],
   [.call "TITLE".toList [], .call "EOL".toList [], .call "URL".toList []],
   htmlLinkOutline,
   markdownLinkOutline ⟨1, 17⟩ ⟨28, 55⟩,
   .argument "  ".toList ⟨0, 17⟩ :: .call "TREE_INDENT".toList "\"  \"".toList ::
    .copy "*".toList :: .copy " ".toList :: markdownLinkOutline ⟨22, 38⟩ ⟨49, 76⟩]

theorem outline_stock :
    Config.stock.formats.map (fun f => outline defaultLimit 0 f.template) = stockOutlines := by
  decide +kernel

section Filled

variable (ctx : Context)

theorem apply_htmlSafe (name rawArgs value : Text) :
    Function.htmlSafe.apply ⟨name, rawArgs, [value]⟩ = .ok (Escape.html value) := rfl

theorem apply_mdSafe (name rawArgs value : Text) :
    Function.mdSafe.apply ⟨name, rawArgs, [value]⟩ = .ok (Escape.markdown value) := rfl

theorem apply_mdLinkTitleSafe (name rawArgs value : Text) :
    Function.mdLinkTitleSafe.apply ⟨name, rawArgs, [value]⟩ =
      .ok (Escape.markdownLinkTitle value) := rfl

theorem fills_title :
    Fills ctx.resolver defaultLimit 1 [] (outline defaultLimit 1 "%TITLE%".toList)
      ctx.tab.title := by
  have houtline : outline defaultLimit 1 "%TITLE%".toList = [.call "TITLE".toList []] := by
    decide +kernel
  rw [houtline]
  exact .of_eq (.field (f := .title) (by decide +kernel) .nil) (List.append_nil _)

theorem fills_url :
    Fills ctx.resolver defaultLimit 1 [] (outline defaultLimit 1 "%URL%".toList) ctx.tab.url := by
  have houtline : outline defaultLimit 1 "%URL%".toList = [.call "URL".toList []] := by
    decide +kernel
  rw [houtline]
  exact .of_eq (.field (f := .url) (by decide +kernel) .nil) (List.append_nil _)

theorem fills_spaces :
    Fills ctx.resolver defaultLimit 1 [] (outline defaultLimit 1 "  ".toList) "  ".toList := by
  have houtline : outline defaultLimit 1 "  ".toList = [.copy "  ".toList] := by decide +kernel
  rw [houtline]
  exact .of_eq (.copy _ .nil) (List.append_nil _)

theorem fills_htmlLink :
    Fills ctx.resolver defaultLimit 0 [] htmlLinkOutline (htmlLink ctx.tab) := by
  unfold htmlLinkOutline
  exact .of_eq (.copy _ <| .copy _ <| .copy _ <| .copy _ <|
    .function (by decide +kernel) (fills_title ctx) (apply_htmlSafe _ _ _) <|
    .copy _ <| .copy _ <| .copy _ <| .copy _ <|
    .function (by decide +kernel) (fills_url ctx) (apply_htmlSafe _ _ _) <| .copy _ <| .copy _ <|
    .function (by decide +kernel) (fills_title ctx) (apply_htmlSafe _ _ _) <| .copy _ .nil) rfl

theorem fills_markdownLink (first second : Span) :
    Fills ctx.resolver defaultLimit 0 [] (markdownLinkOutline first second)
      (markdownLink ctx.tab) := by
  unfold markdownLinkOutline
  exact .of_eq (.copy _ <|
    .function (by decide +kernel) (fills_title ctx) (apply_mdSafe _ _ _) <|
    .copy _ <| .copy _ <| .field (f := .url) (by decide +kernel) <| .copy _ <| .copy _ <|
    .function (by decide +kernel) (fills_title ctx) (apply_mdLinkTitleSafe _ _ _) <|
    .copy _ <| .copy _ .nil) rfl

/-- The indentation by a unit is the unit repeated. -/
theorem indentation_singleton (unit : Text) (level : Nat) :
    Tab.indentation [unit] level = (List.replicate level unit).flatten := by
  induction level with
  | zero => rfl
  | succ level ih =>
    rw [Tab.indentation, ih, Tab.indentUnit, List.length_singleton, Nat.sub_self, Nat.min_zero]
    rfl

/-- **What the stock formats are filled with.** -/
theorem fills_stock :
    List.Forall₂ (Fills ctx.resolver defaultLimit 0 []) stockOutlines
      (stockTexts ctx.eol ctx.tab) := by
  refine .cons ?url <| .cons ?titleAndUrl <| .cons (fills_htmlLink ctx) <|
    .cons (fills_markdownLink ctx _ _) <| .cons ?markdownList .nil
  case url => exact .of_eq (.field (f := .url) (by decide +kernel) .nil) (List.append_nil _)
  case titleAndUrl =>
    refine .of_eq (.field (f := .title) (by decide +kernel) <|
      .field (f := .eol) (by decide +kernel) <| .field (f := .url) (by decide +kernel) .nil) ?_
    rw [List.append_nil, List.append_assoc]
    rfl
  case markdownList =>
    refine .of_eq (.argument _ _ (fills_spaces ctx) <|
      .field (f := .treeIndent) (by decide +kernel) <| .copy _ <| .copy _ <|
      fills_markdownLink ctx _ _) ?_
    rw [← indentation_singleton, List.append_assoc]
    rfl

end Filled

/-! ### The stock formats -/

theorem isRichText_stock : ∀ f ∈ Config.stock.formats, isRichText f.template = false := by
  decide +kernel

/-- **The stock formats.** Whatever a tab is, the stock formats succeed without rich text, and their
texts are made of those of the tab, escaped for the places where they stand, and of the line ending:
a carriage return and a line feed, or a line feed alone. In a text that is
escaped for HTML nothing but entities can be taken for markup, and decoding them gives the text
back. In a text that is escaped for Markdown each character of the set has a backslash, and without
the backslashes it is the text again. -/
theorem formatTab_stock (useCrlf : Bool) (delimiter : Delimiter) (times : Times) (tab : Tab) :
    let settings : Settings := { useCrlf, delimiter }
    List.Forall₂ (fun f s => (formatTab f.template settings times tab).result = .ok ⟨s, none⟩)
      Config.stock.formats (stockTexts (if useCrlf then ['\r', '\n'] else ['\n']) tab) ∧
    ∀ s : Text,
      (∀ c ∈ Escape.html s, c ∉ ['"', '<', '>']) ∧
      (∀ before after, Escape.html s = before ++ '&' :: after →
        ∃ e ∈ Escape.entities, e.1 <+: after) ∧
      Escape.decodeHtml (Escape.html s) = s ∧
      Escape.Guards Escape.IsAsciiPunctuation s (Escape.markdown s) ∧
      Escape.Guards (· ∈ ['"', '\'', '(', ')', '&', '\\']) s (Escape.markdownLinkTitle s) := by
  intro settings
  refine ⟨?_, fun s => ⟨Escape.markup_notMem_html s, fun _ _ => Escape.entity_of_html_eq,
    Escape.decodeHtml_html s, Escape.guards_markdown s, Escape.guards_markdownLinkTitle s⟩⟩
  have hfills := fills_stock ⟨tab, settings.eol, times⟩
  rw [← outline_stock, List.forall₂_map_left_iff] at hfills
  exact ((List.forall₂_and_left _ _).mpr ⟨isRichText_stock, hfills⟩).imp fun f s h =>
    formatTab_of_fills h.2 h.1

end TabFormat
