/-!
Tags with a meaning of their own: the wrapper around a component's content, the outlet that content
is projected into, and the tags whose content is literal unless the options say otherwise.
-/
namespace Templating.Tag

def isWrapper (tag : String) : Bool := tag == "template"

def isSlot (tag : String) : Bool := tag == "slot"

def isRawText (tag : String) : Bool := tag == "style" || tag == "script"

end Templating.Tag
