import UtilityCss.Css.Token

/-! The base styles that a style sheet gets where it asks for a base layer. -/
namespace UtilityCss.Sheet

/-- The base rules: selectors, and properties with their values. -/
def preflightRules : List (List String × List (String × String)) := [
  (["*", "::before", "::after"],
    [("box-sizing", "border-box"), ("border-width", "0"), ("border-style", "solid"),
     ("border-color", "currentColor")]),
  (["html", ":host"],
    [("line-height", "1.5"), ("-webkit-text-size-adjust", "100%"), ("tab-size", "4"),
     ("font-family",
      "ui-sans-serif, system-ui, sans-serif, \"Apple Color Emoji\", " ++
      "\"Segoe UI Emoji\", \"Segoe UI Symbol\", \"Noto Color Emoji\""),
     ("-webkit-tap-highlight-color", "transparent")]),
  (["body"],
    [("margin", "0"), ("line-height", "inherit")]),
  (["hr"],
    [("height", "0"), ("color", "inherit"), ("border-top-width", "1px")]),
  (["h1", "h2", "h3", "h4", "h5", "h6"],
    [("font-size", "inherit"), ("font-weight", "inherit")]),
  (["a"],
    [("color", "inherit"), ("text-decoration", "inherit")]),
  (["b", "strong"],
    [("font-weight", "bolder")]),
  (["code", "kbd", "samp", "pre"],
    [("font-family",
      "ui-monospace, SFMono-Regular, Menlo, Monaco, Consolas, " ++
      "\"Liberation Mono\", \"Courier New\", monospace"), ("font-size", "1em")]),
  (["small"],
    [("font-size", "80%")]),
  (["table"],
    [("text-indent", "0"), ("border-color", "inherit"), ("border-collapse", "collapse")]),
  (["button", "input", "optgroup", "select", "textarea"],
    [("font-family", "inherit"), ("font-size", "100%"), ("font-weight", "inherit"),
     ("line-height", "inherit"), ("color", "inherit"), ("margin", "0"), ("padding", "0")]),
  (["button", "select"],
    [("text-transform", "none")]),
  (["button", "input:where([type='button'])", "input:where([type='reset'])",
     "input:where([type='submit'])"],
    [("-webkit-appearance", "button"), ("background-color", "transparent"),
     ("background-image", "none")]),
  (["blockquote", "dl", "dd", "h1", "h2", "h3", "h4", "h5", "h6", "hr", "figure", "p", "pre"],
    [("margin", "0")]),
  (["ol", "ul", "menu"],
    [("list-style", "none"), ("margin", "0"), ("padding", "0")]),
  (["textarea"],
    [("resize", "vertical")]),
  (["input::placeholder", "textarea::placeholder"],
    [("opacity", "1"), ("color", "#9ca3af")]),
  (["button", "[role=\"button\"]"],
    [("cursor", "pointer")]),
  (["img", "svg", "video", "canvas", "audio", "iframe", "embed", "object"],
    [("display", "block"), ("vertical-align", "middle")]),
  (["img", "video"],
    [("max-width", "100%"), ("height", "auto")]),
  (["[hidden]"],
    [("display", "none")])]

/-- A base rule as it is written in a style sheet. -/
def preflightRule (rule : List String × List (String × String)) : String :=
  String.intercalate ",\n" rule.1 ++ " \x7b\n" ++
    String.join (rule.2.map fun d => "  " ++ d.1 ++ ": " ++ d.2 ++ ";\n") ++ "\x7d\n"

/-- The base rules as a style sheet. -/
def preflight : String := String.intercalate "\n" (preflightRules.map preflightRule)

/-- The text for a base layer. -/
def baseText : String := Css.compact preflight

end UtilityCss.Sheet
