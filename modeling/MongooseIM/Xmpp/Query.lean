import MongooseIM.Xmpp.Stanza

/-! # Queries of elements

The functions of `exml_query` that look for children of an element. -/

namespace MongooseIM.Xmpp.Element

variable (el : Element)

/-- `exml_query:attr/3` -/
def attrD (key value : String) : String := (el.attr? key).getD value

/-- `exml_query:subelement/2` -/
def subelement (name : String) : Option Element :=
  el.children.find? fun child => child.name = name

/-- `exml_query:subelements/2` -/
def subelements (name : String) : List Element :=
  el.children.filter fun child => child.name = name

/-- `exml_query:subelement_with_ns/2` -/
def subelementWithNs (ns : String) : Option Element :=
  el.children.find? fun child => child.attr? "xmlns" = some ns

/-- `exml_query:subelement_with_name_and_ns/3` -/
def subelementWithNameAndNs (name ns : String) : Option Element :=
  el.children.find? fun child => child.name = name ∧ child.attr? "xmlns" = some ns

end MongooseIM.Xmpp.Element
