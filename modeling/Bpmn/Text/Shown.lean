namespace Bpmn

/-- A text as messages show it; a missing one reads `None`. -/
def shown (text : Option String) : String := text.getD "None"

end Bpmn
