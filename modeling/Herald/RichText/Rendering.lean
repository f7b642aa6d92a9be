import Herald.Markup.Mrkdwn
import Herald.Notice
import Herald.RichText.Node

/-!
# Rendering rich text

* `Context`: what the rendering of a node depends on besides the node;
* `Rendered`: the spelling, the context afterwards, and the notices;
* `Node.render`, `Node.renderAll`: a node, or a list of nodes under one context;
* `renderIn`: a whole rich text in any dialect, under a context;
* `toMrkdwn`: a whole rich text in mrkdwn.

The children of an element have a context of their own, so the only thing that a node can do to its
siblings is to take a number: a list item takes the next one of its list.
-/

namespace Herald.RichText

open Json Markup

/-- What a rendering depends on besides the node. -/
structure Context where
  /-- Inside a quote, at any depth. -/
  quoted : Bool
  /-- The number of the last item, directly inside an ordered list. -/
  counter : Option Nat
  deriving DecidableEq, Repr

namespace Context

/-- The context of a whole rich text. -/
def fresh : Context := ⟨false, none⟩

/-- The context of the children of an element: quoting goes on, numbering does not. -/
def inner (c : Context) : Context := ⟨c.quoted, none⟩

/-- The context of the items of an ordered list. -/
def numbered (c : Context) : Context := ⟨c.quoted, some 0⟩

/-- The context of a child of a quote. -/
def quote : Context := ⟨true, none⟩

/-- The context after a list item, which has taken the next number if there are numbers. -/
def count (c : Context) : Context := { c with counter := c.counter.map (· + 1) }

end Context

/-- What rendering yields. -/
structure Rendered where
  output : String
  context : Context
  notices : List Notice
  deriving Repr

/-- Elements with this many elements around them, or more, are dropped. -/
def maxDepth : Nat := 64

namespace Node

mutual

/-- Render a node with `depth` elements around it. -/
def render (d : Dialect) (depth : Nat) (c : Context) : Node → Rendered
  | .text data => ⟨d.text data, c, []⟩
  | .unknown => ⟨"", c, [.unknownNode]⟩
  | .element tag attributes children =>
    if maxDepth ≤ depth then ⟨"", c, [.nestedTooDeeply tag.name depth]⟩
    else
      let within (wrap : String → String) : Rendered :=
        let r := renderAll d (depth + 1) c.inner children
        ⟨wrap r.output, c, r.notices⟩
      match tag with
      | .paragraph => within d.paragraph
      | .bold => within d.bold
      | .italic => within d.italic
      | .strikethrough => within d.strikethrough
      | .link =>
        let r := renderAll d (depth + 1) c.inner children
        match (attributes.get? "href").bind Value.text? with
        | some target => ⟨d.link target r.output, c, r.notices⟩
        | none => ⟨r.output, c, r.notices ++ [.linkWithoutTarget]⟩
      | .lineBreak => ⟨d.lineBreak c.quoted, c, []⟩
      | .codeBlock => within d.codeBlock
      | .inlineCode => within d.inlineCode
      | .blockquote =>
        let r := renderQuoted d (depth + 1) children
        ⟨r.value, c, r.notices⟩
      | .unorderedList => within d.list
      | .orderedList =>
        let r := renderAll d (depth + 1) c.numbered children
        ⟨d.list r.output, c, r.notices⟩
      | .listItem =>
        let r := renderAll d (depth + 1) c.inner children
        ⟨d.listItem c.count.counter r.output, c.count, r.notices⟩
      | .heading level => within (d.heading level)
      | .horizontalRule => ⟨"", c, []⟩
      | .unknown name => ⟨"", c, [.missingTag name]⟩

/-- Render nodes one after another under one context. -/
def renderAll (d : Dialect) (depth : Nat) (c : Context) : List Node → Rendered
  | [] => ⟨"", c, []⟩
  | n :: ns =>
    let r := render d depth c n
    let rest := renderAll d depth r.context ns
    ⟨r.output ++ rest.output, rest.context, r.notices ++ rest.notices⟩

/-- Render the children of a quote, each quoted on its own. -/
def renderQuoted (d : Dialect) (depth : Nat) : List Node → Noted String
  | [] => ⟨"", []⟩
  | n :: ns =>
    let r := render d depth .quote n
    let rest := renderQuoted d depth ns
    ⟨d.quote r.output ++ rest.value, r.notices ++ rest.notices⟩

end

end Node

/-- Render a rich text under a context. -/
def renderIn (d : Dialect) (c : Context) (nodes : List Node) : Rendered :=
  Node.renderAll d 0 c nodes

/-- Render a whole rich text in mrkdwn. -/
def toMrkdwn (nodes : List Node) : Noted String :=
  let r := renderIn mrkdwn .fresh nodes
  ⟨r.output, r.notices⟩

end Herald.RichText
