import ClusterRegistrar.Text.Basic

/-! Text that starts or ends with another text, and the text that is left without it. -/
namespace ClusterRegistrar.Affix

def dropStart? (start t : Text) : Option Text := start.isPrefixOf? t

def dropEnd? (ending t : Text) : Option Text := ending.isSuffixOf? t

def startsWith (start t : Text) : Bool := (dropStart? start t).isSome

def endsWith (ending t : Text) : Bool := (dropEnd? ending t).isSome

def removeEnd (ending t : Text) : Text := (dropEnd? ending t).getD t

end ClusterRegistrar.Affix
