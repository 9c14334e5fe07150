import UtilityCss.Rule.Basic

/-! The utilities that do not depend on a theme. A utility that sets one direction has a higher
specificity than the one that sets all, so that it is written later and wins. -/
namespace UtilityCss.Rule.Catalogue

/-- A named rule of this name, these declarations and this specificity. -/
def named (name css : String) (specificity : Int := 0) : String × Rule :=
  (name, { css, specificity })

private def transition (properties : String) : String :=
  "transition-property: " ++ properties ++
    ";transition-timing-function: cubic-bezier(0.4, 0, 0.2, 1);transition-duration: 150ms;"

private def gradient (direction : String) : String :=
  "background-image: linear-gradient(to " ++ direction ++ ", var(--tw-gradient-stops));"

/-- All backdrop filters stand in one value, so each of them is set by a property of its own. -/
private def backdropFilters : String :=
  String.intercalate " " <|
    ["blur", "brightness", "contrast", "grayscale", "hue-rotate", "invert", "opacity", "saturate",
      "sepia"].map fun name => "var(--tw-backdrop-" ++ name ++ ")"

private def backdropBlur (value : String) : String :=
  "--tw-backdrop-blur: " ++ value ++ ";-webkit-backdrop-filter: " ++ backdropFilters ++
    ";backdrop-filter: " ++ backdropFilters ++ ";"

/-- The transform that reads every transform property. -/
private def transform : String :=
  "transform: translate(var(--tw-translate-x), var(--tw-translate-y)) rotate(var(--tw-rotate)) " ++
    "skewX(var(--tw-skew-x)) skewY(var(--tw-skew-y)) scaleX(var(--tw-scale-x)) " ++
    "scaleY(var(--tw-scale-y))"

/-- Utilities written out one by one. -/
def literals : List (String × String × Int) := [
  ("animate-none", "animation: none;", 0),
  ("italic", "font-style: italic;", 0),
  ("not-italic", "font-style: normal;", 0),
  ("uppercase", "text-transform: uppercase;", 0),
  ("lowercase", "text-transform: lowercase;", 0),
  ("capitalize", "text-transform: capitalize;", 0),
  ("normal-case", "text-transform: none;", 0),
  ("static", "position: static;", 0),
  ("fixed", "position: fixed;", 0),
  ("absolute", "position: absolute;", 0),
  ("relative", "position: relative;", 0),
  ("sticky", "position: sticky;", 0),
  ("visible", "visibility: visible;", 0),
  ("invisible", "visibility: hidden;", 0),
  ("collapse", "visibility: collapse;", 0),
  ("block", "display: block;", 0),
  ("inline-block", "display: inline-block;", 0),
  ("inline", "display: inline;", 0),
  ("flex", "display: flex;", 0),
  ("inline-flex", "display: inline-flex;", 0),
  ("table", "display: table;", 0),
  ("inline-table", "display: inline-table;", 0),
  ("table-caption", "display: table-caption;", 0),
  ("table-cell", "display: table-cell;", 0),
  ("table-column", "display: table-column;", 0),
  ("table-column-group", "display: table-column-group;", 0),
  ("table-footer-group", "display: table-footer-group;", 0),
  ("table-header-group", "display: table-header-group;", 0),
  ("table-row-group", "display: table-row-group;", 0),
  ("table-row", "display: table-row;", 0),
  ("flow-root", "display: flow-root;", 0),
  ("grid", "display: grid;", 0),
  ("inline-grid", "display: inline-grid;", 0),
  ("contents", "display: contents;", 0),
  ("list-item", "display: list-item;", 0),
  ("hidden", "display: none;", 1),
  ("grow", "flex-grow: 1;", 0),
  ("grow-0", "flex-grow: 0;", 1),
  ("flex-row", "flex-direction: row;", 0),
  ("flex-col", "flex-direction: column;", 0),
  ("justify-normal", "justify-content: normal;", 0),
  ("justify-start", "justify-content: flex-start;", 0),
  ("justify-end", "justify-content: flex-end;", 0),
  ("justify-center", "justify-content: center;", 0),
  ("justify-between", "justify-content: space-between;", 0),
  ("justify-around", "justify-content: space-around;", 0),
  ("justify-evenly", "justify-content: space-evenly;", 0),
  ("justify-stretch", "justify-content: stretch;", 0),
  ("items-start", "align-items: flex-start;", 0),
  ("items-end", "align-items: flex-end;", 0),
  ("items-center", "align-items: center;", 0),
  ("items-baseline", "align-items: baseline;", 0),
  ("items-stretch", "align-items: stretch;", 0),
  ("auto-cols-auto", "grid-auto-columns: auto;", 0),
  ("auto-cols-min", "grid-auto-columns: min-content;", 0),
  ("auto-cols-max", "grid-auto-columns: max-content;", 0),
  ("auto-cols-fr", "grid-auto-columns: minmax(0, 1fr);", 0),
  ("auto-rows-auto", "grid-auto-rows: auto;", 0),
  ("auto-rows-min", "grid-auto-rows: min-content;", 0),
  ("auto-rows-max", "grid-auto-rows: max-content;", 0),
  ("auto-rows-fr", "grid-auto-rows: minmax(0, 1fr);", 0),
  ("grid-cols-none", "grid-template-columns: none;", 0),
  ("grid-cols-subgrid", "grid-template-columns: subgrid;", 0),
  ("grid-rows-none", "grid-template-rows: none;", 0),
  ("grid-rows-subgrid", "grid-template-rows: subgrid;", 0),
  ("col-span-full", "grid-column: 1 / -1;", 0),
  ("row-span-full", "grid-row: 1 / -1;", 0),
  ("grid-flow-row", "grid-auto-flow: row;", 0),
  ("grid-flow-col", "grid-auto-flow: column;", 0),
  ("grid-flow-dense", "grid-auto-flow: dense;", 0),
  ("grid-flow-row-dense", "grid-auto-flow: row dense;", 0),
  ("grid-flow-col-dense", "grid-auto-flow: column dense;", 0),
  ("col-auto", "grid-column: auto;", 0),
  ("row-auto", "grid-row: auto;", 0),
  ("col-start-auto", "grid-column-start: auto;", 0),
  ("row-start-auto", "grid-row-start: auto;", 0),
  ("col-end-auto", "grid-column-end: auto;", 0),
  ("row-end-auto", "grid-row-end: auto;", 0),
  ("origin-center", "transform-origin: center;", 0),
  ("origin-top", "transform-origin: top;", 0),
  ("origin-top-right", "transform-origin: top right;", 0),
  ("origin-right", "transform-origin: right;", 0),
  ("origin-bottom-right", "transform-origin: bottom right;", 0),
  ("origin-bottom", "transform-origin: bottom;", 0),
  ("origin-bottom-left", "transform-origin: bottom left;", 0),
  ("origin-left", "transform-origin: left;", 0),
  ("origin-top-left", "transform-origin: top left;", 0),
  ("outline-none", "outline: 2px solid transparent;outline-offset: 2px;", 2),
  ("outline", "outline-style: solid;", 1),
  ("outline-dashed", "outline-style: dashed;", 1),
  ("outline-dotted", "outline-style: dotted;", 1),
  ("outline-double", "outline-style: double;", 1),
  ("outline-0", "outline-width: 0px;", 1),
  ("outline-1", "outline-width: 1px;", 1),
  ("outline-2", "outline-width: 2px;", 1),
  ("outline-4", "outline-width: 4px;", 1),
  ("outline-8", "outline-width: 8px;", 1),
  ("outline-offset-0", "outline-offset: 0px;", 0),
  ("outline-offset-1", "outline-offset: 1px;", 0),
  ("outline-offset-2", "outline-offset: 2px;", 0),
  ("outline-offset-4", "outline-offset: 4px;", 0),
  ("outline-offset-8", "outline-offset: 8px;", 0),
  ("overflow-auto", "overflow: auto;", 0),
  ("overflow-hidden", "overflow: hidden;", 0),
  ("overflow-clip", "overflow: clip;", 0),
  ("overflow-visible", "overflow: visible;", 0),
  ("overflow-scroll", "overflow: scroll;", 0),
  ("overflow-x-auto", "overflow-x: auto;", 1),
  ("overflow-x-hidden", "overflow-x: hidden;", 1),
  ("overflow-x-clip", "overflow-x: clip;", 1),
  ("overflow-x-visible", "overflow-x: visible;", 1),
  ("overflow-x-scroll", "overflow-x: scroll;", 1),
  ("overflow-y-auto", "overflow-y: auto;", 1),
  ("overflow-y-hidden", "overflow-y: hidden;", 1),
  ("overflow-y-clip", "overflow-y: clip;", 1),
  ("overflow-y-visible", "overflow-y: visible;", 1),
  ("overflow-y-scroll", "overflow-y: scroll;", 1),
  ("border-solid", "border-style: solid;", 0),
  ("border-dashed", "border-style: dashed;", 0),
  ("border-dotted", "border-style: dotted;", 0),
  ("border-double", "border-style: double;", 0),
  ("border-hidden", "border-style: hidden;", 0),
  ("border-none", "border-style: none;", 0),
  ("bg-clip-border", "background-clip: border-box;", 0),
  ("bg-clip-padding", "background-clip: padding-box;", 0),
  ("bg-clip-content", "background-clip: content-box;", 0),
  ("bg-clip-text", "background-clip: text;", 0),
  ("aspect-auto", "aspect-ratio: auto;", 1),
  ("aspect-square", "aspect-ratio: 1 / 1;", 0),
  ("aspect-video", "aspect-ratio: 16 / 9;", 0),
  ("box-border", "box-sizing: border-box;", 0),
  ("box-content", "box-sizing: content-box;", 0),
  ("underline", "text-decoration-line: underline;", 0),
  ("overline", "text-decoration-line: overline;", 0),
  ("line-through", "text-decoration-line: line-through;", 0),
  ("no-underline", "text-decoration-line: none;", 0),
  ("decoration-solid", "text-decoration-style: solid;", 0),
  ("decoration-double", "text-decoration-style: double;", 0),
  ("decoration-dotted", "text-decoration-style: dotted;", 0),
  ("decoration-dashed", "text-decoration-style: dashed;", 0),
  ("decoration-wavy", "text-decoration-style: wavy;", 0),
  ("decoration-auto", "text-decoration-thickness: auto;", 0),
  ("decoration-from-font", "text-decoration-thickness: from-font;", 0),
  ("decoration-0", "text-decoration-thickness: 0px;", 0),
  ("decoration-1", "text-decoration-thickness: 1px;", 0),
  ("decoration-2", "text-decoration-thickness: 2px;", 0),
  ("decoration-4", "text-decoration-thickness: 4px;", 0),
  ("decoration-8", "text-decoration-thickness: 8px;", 0),
  ("underline-offset-auto", "text-underline-offset: auto;", 0),
  ("underline-offset-0", "text-underline-offset: 0px;", 0),
  ("underline-offset-1", "text-underline-offset: 1px;", 0),
  ("underline-offset-2", "text-underline-offset: 2px;", 0),
  ("underline-offset-4", "text-underline-offset: 4px;", 0),
  ("underline-offset-8", "text-underline-offset: 8px;", 0),
  ("break-normal", "overflow-wrap: normal;word-break: normal;", 0),
  ("break-words", "overflow-wrap: break-word;", 0),
  ("break-all", "word-break: break-all;", 0),
  ("break-keep", "word-break: keep-all;", 0),
  ("text-wrap", "text-wrap: wrap;", 0),
  ("text-nowrap", "text-wrap: nowrap;", 0),
  ("text-balance", "text-wrap: balance;", 0),
  ("text-pretty", "text-wrap: pretty;", 0),
  ("truncate", "overflow: hidden;text-overflow: ellipsis;white-space: nowrap;", 1),
  ("text-ellipsis", "text-overflow: ellipsis;", 0),
  ("text-clip", "text-overflow: clip;", 0),
  ("z-0", "z-index: 0;", 0),
  ("z-10", "z-index: 10;", 0),
  ("z-20", "z-index: 20;", 0),
  ("z-30", "z-index: 30;", 0),
  ("z-40", "z-index: 40;", 0),
  ("z-50", "z-index: 50;", 0),
  ("z-auto", "z-index: auto;", 0),
  ("text-left", "text-align: left;", 0),
  ("text-center", "text-align: center;", 0),
  ("text-right", "text-align: right;", 0),
  ("text-justify", "text-align: justify;", 0),
  ("text-start", "text-align: start;", 0),
  ("text-end", "text-align: end;", 0),
  ("whitespace-normal", "white-space: normal;", 0),
  ("whitespace-nowrap", "white-space: nowrap;", 0),
  ("whitespace-pre", "white-space: pre;", 0),
  ("whitespace-pre-line", "white-space: pre-line;", 0),
  ("whitespace-pre-wrap", "white-space: pre-wrap;", 0),
  ("whitespace-break-spaces", "white-space: break-spaces;", 0),
  ("shadow-invert-y", "--tw-shadow-y: -1;", 1),
  ("backdrop-blur-none", backdropBlur "", 0),
  ("backdrop-blur-sm", backdropBlur "blur(4px)", 0),
  ("backdrop-blur", backdropBlur "blur(8px)", 0),
  ("backdrop-blur-md", backdropBlur "blur(12px)", 0),
  ("backdrop-blur-lg", backdropBlur "blur(16px)", 0),
  ("backdrop-blur-xl", backdropBlur "blur(24px)", 0),
  ("backdrop-blur-2xl", backdropBlur "blur(40px)", 0),
  ("backdrop-blur-3xl", backdropBlur "blur(64px)", 0),
  ("ease-linear", "transition-timing-function: linear;", 1),
  ("ease-in", "transition-timing-function: cubic-bezier(0.4, 0, 1, 1);", 1),
  ("ease-out", "transition-timing-function: cubic-bezier(0, 0, 0.2, 1);", 1),
  ("ease-in-out", "transition-timing-function: cubic-bezier(0.4, 0, 0.2, 1);", 1),
  ("transition-none", "transition-property: none;", 1),
  ("transition-all", transition "all", 0),
  ("transition",
    transition ("color, background-color, border-color, text-decoration-color, fill, stroke, " ++
      "opacity, box-shadow, transform, filter, backdrop-filter"), 0),
  ("transition-colors",
    transition "color, background-color, border-color, text-decoration-color, fill, stroke", 0),
  ("transition-opacity", transition "opacity", 0),
  ("transition-shadow", transition "box-shadow", 0),
  ("transition-transform", transition "transform", 0),
  ("bg-none", "background-image: none;", 1),
  ("bg-gradient-to-t", gradient "top", 0),
  ("bg-gradient-to-tr", gradient "top right", 0),
  ("bg-gradient-to-r", gradient "right", 0),
  ("bg-gradient-to-br", gradient "bottom right", 0),
  ("bg-gradient-to-b", gradient "bottom", 0),
  ("bg-gradient-to-bl", gradient "bottom left", 0),
  ("bg-gradient-to-l", gradient "left", 0),
  ("bg-gradient-to-tl", gradient "top left", 0)]

/-- The angles of rotations in degrees. -/
def rotations : List Nat := [0, 1, 2, 3, 6, 12, 45, 180]

/-- The lengths of transitions and their delays in milliseconds. -/
def timings : List Nat := [0, 75, 100, 150, 200, 300, 500, 700, 1000]

/-- The steps of opacity in percent. -/
def opacitySteps : List Nat := (List.range 21).map (5 * ·)

/-- A percentage as a fraction without needless zeros. -/
def opacityText (percent : Nat) : String :=
  if percent = 0 then "0"
  else if percent = 100 then "1"
  else if percent % 10 = 0 then "0." ++ toString (percent / 10)
  else if percent < 10 then "0.0" ++ toString percent
  else "0." ++ toString percent

private def rotation (degrees : Nat) : String × Rule :=
  named ("rotate-" ++ toString degrees)
    ("--tw-rotate: " ++ toString degrees ++ "deg;" ++ transform ++ ";")

private def timing (ms : Nat) : List (String × Rule) := [
  named ("duration-" ++ toString ms) ("transition-duration: " ++ toString ms ++ "ms;") 1,
  named ("delay-" ++ toString ms) ("transition-delay: " ++ toString ms ++ "ms;") 1]

private def opacity (percent : Nat) : String × Rule :=
  named ("opacity-" ++ toString percent) ("opacity: " ++ opacityText percent ++ ";")

/-- The utilities for track `i` of a grid. -/
def gridTrack (n : Nat) : List (String × Rule) :=
  let i := toString n
  [named ("grid-cols-" ++ i) ("grid-template-columns: repeat(" ++ i ++ ", minmax(0, 1fr));"),
    named ("grid-rows-" ++ i) ("grid-template-rows: repeat(" ++ i ++ ", minmax(0, 1fr));"),
    named ("col-start-" ++ i) ("grid-column-start: " ++ i ++ ";"),
    named ("row-start-" ++ i) ("grid-row-start: " ++ i ++ ";"),
    named ("col-end-" ++ i) ("grid-column-end: " ++ i ++ ";"),
    named ("row-end-" ++ i) ("grid-row-end: " ++ i ++ ";"),
    named ("col-span-" ++ i) ("grid-column: span " ++ i ++ " / span " ++ i ++ ";"),
    named ("row-span-" ++ i) ("grid-row: span " ++ i ++ " / span " ++ i ++ ";")]

/-- An animation with the keyframes that it needs. -/
private def animation (name timing keyframes : String) : String × Rule :=
  ("animate-" ++ name, {
    css := "animation: " ++ name ++ " " ++ timing ++ ";"
    specificity := 1
    sibling := some ("@keyframes " ++ name ++ " " ++ keyframes) })

private def animations : List (String × Rule) := [
  animation "spin" "1s linear infinite"
    "\x7b from \x7b transform: rotate(0deg); \x7d to \x7b transform: rotate(360deg); \x7d \x7d",
  animation "ping" "1s cubic-bezier(0, 0, 0.2, 1) infinite"
    "\x7b 75%, 100% \x7b transform: scale(2); opacity: 0; \x7d \x7d",
  animation "pulse" "2s cubic-bezier(0.4, 0, 0.6, 1) infinite"
    "\x7b 0%, 100% \x7b opacity: 1; \x7d 50% \x7b opacity: .5; \x7d \x7d",
  animation "bounce" "1s infinite"
    ("\x7b 0%, 100% \x7b transform: translateY(-25%); " ++
      "animation-timing-function: cubic-bezier(0.8, 0, 1, 1); \x7d " ++
      "50% \x7b transform: translateY(0); " ++
      "animation-timing-function: cubic-bezier(0, 0, 0.2, 1); \x7d \x7d")]

/-- All utilities that do not depend on a theme. -/
def entries : List (String × Rule) :=
  literals.map (fun e => named e.1 e.2.1 e.2.2) ++ rotations.map rotation ++
    timings.flatMap timing ++ opacitySteps.map opacity ++ (List.range' 1 12).flatMap gridTrack ++
    animations

end UtilityCss.Rule.Catalogue
