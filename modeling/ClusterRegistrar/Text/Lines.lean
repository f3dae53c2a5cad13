import ClusterRegistrar.Text.Basic

/-! Text as lines. -/
namespace ClusterRegistrar.Lines

def lineFeed : CodePoint := '\n'

def split (t : Text) : List Text := t.split lineFeed

def dropFinalBreaks (t : Text) : Text := (t.reverse.dropWhile (· = lineFeed)).reverse

def join (lines : List Text) : Text := lines.flatMap (· ++ [lineFeed])

def last (t : Text) : Text := (split (dropFinalBreaks t)).getLast?.getD []

end ClusterRegistrar.Lines
